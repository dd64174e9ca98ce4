import LoxLexer.Source.Failure

namespace LoxLexer

/-- What can be read, path by path.  The system is not asked for a path that contains U+0000. -/
structure FileSystem where
  read : List Char → Except ReadFailure (List UInt8)
  embeddedNull_iff : ∀ path, read path = .error .embeddedNull ↔ '\x00' ∈ path

/-- Files and folders below a working folder, each under the list of names that leads to it. -/
structure Folder where
  files : List (List (List Char) × List UInt8)
  folders : List (List (List Char))
  deriving DecidableEq

namespace Folder

inductive Place
  /-- A folder above the working folder.  Nothing is known of its entries. -/
  | above
  | inside (names : List (List Char))
  | file (content : List UInt8)
  deriving DecidableEq

def utf8Size (text : List Char) : Nat := text.foldl (fun size c => size + c.utf8Size) 0

def maxNameSize : Nat := 255

def maxPathSize : Nat := 4095

/-- An entry makes every list of names that leads to it a folder. -/
def hasFolder (d : Folder) (names : List (List Char)) : Bool :=
  d.folders.any (names.isPrefixOf ·) ||
    d.files.any fun f => names.isPrefixOf f.1 && names.length < f.1.length

def enter (d : Folder) (names : List (List Char)) (name : List Char) :
    Except SystemError Place :=
  let target := names ++ [name]
  if maxNameSize < utf8Size name then .error .nameTooLong
  else match d.files.lookup target with
    | some content => .ok (.file content)
    | none => if d.hasFolder target then .ok (.inside target) else .error .noSuchEntry

def follow (d : Folder) (place : Place) (component : List Char) : Except SystemError Place :=
  match place with
  | .file _ => .error .notFolder
  | .above =>
    if component = [] ∨ component = ['.'] ∨ component = ['.', '.'] then .ok .above
    else if maxNameSize < utf8Size component then .error .nameTooLong
    else .error .noSuchEntry
  | .inside names =>
    if component = [] ∨ component = ['.'] then .ok place
    else if component = ['.', '.'] then
      .ok (if names = [] then .above else .inside names.dropLast)
    else d.enter names component

def components (path : List Char) : List (List Char) := path.splitOn '/'

def start : List Char → Place
  | '/' :: _ => .above
  | _ => .inside []

def resolve (d : Folder) (path : List Char) : Except SystemError Place :=
  if path = [] then .error .noSuchEntry
  else if maxPathSize < utf8Size path then .error .nameTooLong
  else (components path).foldlM d.follow (start path)

def read (d : Folder) (path : List Char) : Except ReadFailure (List UInt8) :=
  if '\x00' ∈ path then .error .embeddedNull
  else match d.resolve path with
    | .error e => .error (.system e)
    | .ok (.file content) => .ok content
    | .ok (.above) | .ok (.inside _) => .error (.system .isFolder)

end Folder

def FileSystem.ofFolder (folder : Folder) : FileSystem where
  read := folder.read
  embeddedNull_iff path := by
    unfold Folder.read
    split
    · next h => exact iff_of_true rfl h
    · next h => split <;> exact iff_of_false nofun h

end LoxLexer
