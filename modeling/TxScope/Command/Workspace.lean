import TxScope.Text.Parse

/-!
# Files

What a command finds and leaves in its working directory. A path is taken apart at its slashes;
empty parts and points say nothing, except for a point that stands first.
-/

namespace TxScope

structure FilePath where
  absolute : Bool
  parts : List String
  deriving DecidableEq, Repr

namespace FilePath

def ofText (text : String) : FilePath :=
  let absolute := text.toList.head? == some '/'
  let parts := Text.split '/' text
  let kept := parts.filter fun p => p != "" && p != "."
  if !absolute && parts.head? == some "." then ⟨false, "." :: kept⟩ else ⟨absolute, kept⟩

/-- The last part, if it is a name. -/
def name? (p : FilePath) : Option String :=
  match p.parts.getLast? with
  | some "." | some ".." | none => none
  | some n => some n

/-- A text that ends like this can only mean a directory. -/
def namesDirectory (text : String) : Bool :=
  ['/'].isSuffixOf text.toList || ['/', '.'].isSuffixOf text.toList

/-- The parts that change the place. -/
def steps (p : FilePath) : List String := p.parts.filter (· != ".")

/-- The path without points that say nothing. -/
def place (p : FilePath) : FilePath := ⟨p.absolute, p.steps⟩

end FilePath

/-- Why a file was not read. -/
inductive FileError where
  | notFound
  | notDirectory
  | isDirectory
  | nameTooLong
  deriving DecidableEq, Repr

def FileError.diagnostic : FileError → String
  | .notFound => "Os \x7b code: 2, kind: NotFound, message: \"No such file or directory\" \x7d"
  | .notDirectory => "Os \x7b code: 20, kind: NotADirectory, message: \"Not a directory\" \x7d"
  | .isDirectory => "Os \x7b code: 21, kind: IsADirectory, message: \"Is a directory\" \x7d"
  | .nameTooLong => "Os \x7b code: 36, kind: InvalidFilename, message: \"File name too long\" \x7d"

inductive FileEntry where
  | file (text : String)
  | directory
  deriving DecidableEq, Repr

/-- The most bytes that one part of a path may have. -/
def partLimit : Nat := 255

/-- The most bytes that a path may have. -/
def pathLimit : Nat := 4095

/-- The known entries, by their steps from the root or from the working directory. -/
structure Workspace where
  entries : List (FilePath × FileEntry)
  deriving DecidableEq, Repr

namespace Workspace

def ofEntries (entries : List (String × FileEntry)) : Workspace :=
  ⟨entries.map fun (name, e) => ((FilePath.ofText name).place, e)⟩

/-- The working directory with some files in it. -/
def ofFiles (files : List (String × String)) : Workspace :=
  ofEntries (files.map fun (name, text) => (name, .file text))

/-- The directories at the root of every system. -/
def systemDirectories : List String :=
  ["bin", "dev", "etc", "home", "lib", "opt", "proc", "root", "run", "sbin", "sys", "tmp", "usr",
   "var"]

/-- Whether every system has a directory at a place. -/
def isSystemDirectory (p : FilePath) : Bool :=
  match p.absolute, p.parts with
  | true, [name] => systemDirectories.contains name
  | _, _ => false

/-- The file of every system that is always empty. -/
def emptyFile : FilePath := ⟨true, ["dev", "null"]⟩

/-- The entry at a place; a place above a known entry is a directory. -/
def entry? (w : Workspace) (p : FilePath) : Option FileEntry :=
  match w.entries.lookup p with
  | some e => some e
  | none =>
    if p = emptyFile then some (.file "")
    else if p.parts.isEmpty || isSystemDirectory p ||
        w.entries.any fun (q, _) => q.absolute == p.absolute && p.parts.isPrefixOf q.parts then
      some .directory
    else none

/-- Follows steps from a place that is a directory; its own steps come latest first. Nothing is
known of what lies beside the working directory. -/
def follow (w : Workspace) (absolute : Bool) : List String → List String →
    Except FileError (FilePath × FileEntry)
  | place, [] => .ok (⟨absolute, place.reverse⟩, .directory)
  | [], ".." :: steps =>
    if absolute || steps.all (· == "..") then follow w absolute [] steps else .error .notFound
  | _ :: place, ".." :: steps => follow w absolute place steps
  | place, s :: steps =>
    let here : FilePath := ⟨absolute, (s :: place).reverse⟩
    if partLimit < s.utf8ByteSize then .error .nameTooLong
    else
    match w.entry? here with
    | none => .error .notFound
    | some .directory => follow w absolute (s :: place) steps
    | some (.file text) =>
      if steps.isEmpty then .ok (here, .file text) else .error .notDirectory

/-- The text of a file. -/
def read (w : Workspace) (name : String) : Except FileError String := do
  if pathLimit < name.utf8ByteSize then throw .nameTooLong
  let p := FilePath.ofText name
  let e ←
    match w.entries.lookup p.place with
    | some e => .ok e
    | none => Prod.snd <$> w.follow p.absolute [] p.steps
  match e with
  | .directory => .error .isDirectory
  | .file text => if FilePath.namesDirectory name then .error .notDirectory else .ok text

def isFile (w : Workspace) (name : String) : Bool := (w.read name).toOption.isSome

/-- Makes the directories along steps from a place, and a file at their end, unless they are there;
says how it went. Steps that leave the working directory end the view of it. What was made before a
failure stays: a file stands where a directory has to be, or a directory where the file has to be,
or a name is too long. -/
def createFrom (absolute : Bool) (w : Workspace) : List String → List String → Workspace × Bool
  | _, [] => (w, true)
  | [], ".." :: steps => if absolute then createFrom absolute w [] steps else (w, true)
  | _ :: place, ".." :: steps => createFrom absolute w place steps
  | place, s :: steps =>
    let here : FilePath := ⟨absolute, (s :: place).reverse⟩
    if partLimit < s.utf8ByteSize || s.contains '\x00' then (w, false)
    else
      match w.entry? here, steps with
      | some (.file _), [] => (w, true)
      | some (.file _), _ => (w, false)
      | some .directory, [] => (w, false)
      | some .directory, steps => createFrom absolute w (s :: place) steps
      | none, [] => (⟨w.entries ++ [(here, .file "")]⟩, true)
      | none, steps => createFrom absolute ⟨w.entries ++ [(here, .directory)]⟩ (s :: place) steps

/-- Makes a file and the directories that it is in. Nothing is made if the path of these directories
is no path at all. -/
def create (w : Workspace) (p : FilePath) : Workspace × Bool :=
  let parents := p.steps.dropLast
  if pathLimit < (String.intercalate "/" parents).utf8ByteSize || parents.any (·.contains '\x00')
  then (w, false)
  else createFrom p.absolute w [] p.steps

/-- The names in the working directory, in order. -/
def names (w : Workspace) : List String :=
  let heads := w.entries.filterMap fun (p, _) => if p.absolute then none else p.parts.head?
  heads.eraseDups.mergeSort fun a b => !(b < a)

end Workspace

end TxScope
