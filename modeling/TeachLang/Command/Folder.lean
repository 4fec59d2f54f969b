import TeachLang.Text.Span

/-! # Folders

The files below a folder, and what reading a path from there gives.  A path leads through
folders; what lies outside is not known, and nothing is found there.
-/

namespace TeachLang

inductive ReadError where
  | notFound
  | notAFolder
  | isAFolder
  | nameTooLong
  | nulCharacter
  | notText
  | other (reason : String)
deriving DecidableEq, Repr

def ReadError.message : ReadError → String
  | notFound => "No such file or directory (os error 2)"
  | notAFolder => "Not a directory (os error 20)"
  | isAFolder => "Is a directory (os error 21)"
  | nameTooLong => "File name too long (os error 36)"
  | nulCharacter => "file name contained an unexpected NUL byte"
  | notText => "stream did not contain valid UTF-8"
  | other reason => reason

/-- Bytes as text, if they are the UTF-8 form of one. -/
def textOfBytes (bytes : ByteArray) : Except ReadError String :=
  match String.fromUTF8? bytes with
  | some text => .ok text
  | none => .error .notText

structure Folder where
  files : List (List String × ByteArray)

namespace Folder

inductive Place where
  | file (bytes : ByteArray)
  /-- A folder below the one at the start, by the names on the way to it. -/
  | inside (names : List String)
  /-- A folder that is not below the one at the start. -/
  | outside

/-- The longest name, and the longest path with the byte that ends it, in bytes. -/
def nameLimit : Nat := 255

def pathLimit : Nat := 4096

def ofFiles (files : List (String × ByteArray)) : Folder :=
  ⟨files.map fun (path, bytes) =>
    ((path.splitOn "/").filter fun name => !name.isEmpty && name != ".", bytes)⟩

def find? (f : Folder) (names : List String) : Option Place :=
  match f.files.lookup names with
  | some bytes => some (.file bytes)
  | none =>
    if f.files.any fun (path, _) => names.isPrefixOf path then some (.inside names) else none

def step (f : Folder) (place : Place) (name : String) : Except ReadError Place :=
  match place with
  | .file _ => .error .notAFolder
  | .inside names =>
    if name.isEmpty || name == "." then .ok place
    else if name == ".." then .ok (if names.isEmpty then .outside else .inside names.dropLast)
    else if name.utf8ByteSize > nameLimit then .error .nameTooLong
    else
      match f.find? (names ++ [name]) with
      | some place => .ok place
      | none => .error .notFound
  | .outside =>
    if name.isEmpty || name == "." || name == ".." then .ok place
    else if name.utf8ByteSize > nameLimit then .error .nameTooLong
    else .error .notFound

def locate (f : Folder) (path : String) : Except ReadError Place :=
  if path.contains '\x00' then .error .nulCharacter
  else if path.isEmpty then .error .notFound
  else if path.utf8ByteSize ≥ pathLimit then .error .nameTooLong
  else
    let start := if path.toList.head? = some '/' then Place.outside else .inside []
    (path.splitOn "/").foldlM f.step start

def read (f : Folder) (path : String) : Except ReadError String := do
  match ← f.locate path with
  | .file bytes => textOfBytes bytes
  | _ => throw .isAFolder

end Folder
end TeachLang
