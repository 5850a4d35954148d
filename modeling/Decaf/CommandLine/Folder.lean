/-!
# Reading a file

A folder holds files and folders. `Folder.put` enters one under a path, with the folders on the way
to it. `Folder.read` follows a path from part to part, as a file system does, and reads the file it
ends at as text. Each way in which that can fail is a cause of its own.
-/

namespace Decaf

/-- Why a file could not be read. `other` is for causes that only a real file system knows. -/
inductive ReadFault where
  | notFound
  | notFolder
  | isFolder
  | notText
  | nameTooLong
  | nullInName
  | other (reason : String)
deriving DecidableEq, Repr

/-- The reason in words, with the number the operating system gives it. -/
def ReadFault.message : ReadFault → String
  | notFound => "No such file or directory (os error 2)"
  | notFolder => "Not a directory (os error 20)"
  | isFolder => "Is a directory (os error 21)"
  | notText => "stream did not contain valid UTF-8"
  | nameTooLong => "File name too long (os error 36)"
  | nullInName => "file name contained an unexpected NUL byte"
  | other reason => reason

/-- The report that a file could not be read. -/
def ReadFault.report (fault : ReadFault) (path : String) : String :=
  "Error opening \"" ++ path ++ "\": " ++ fault.message

/-- The longest name in a folder, in bytes. -/
def longestName : Nat := 255

/-- The longest path, in bytes. -/
def longestPath : Nat := 4095

/-- The parts of a path, which stand between its slashes. -/
def partsOf (path : String) : List String :=
  (path.toList.splitOn '/').map String.ofList

/-- What stands under a path: a file with its bytes, or a folder. -/
inductive Entry where
  | file (bytes : ByteArray)
  | folder

/-- A folder with all that is in it. An entry stands at a place, which is the list of the names on
the way down to it. -/
structure Folder where
  entries : List (List String × Entry)

namespace Folder

/-- A folder with nothing in it. -/
def empty : Folder := ⟨[]⟩

/-- The entry at a place. The folder itself is the place without names. -/
def find? (folder : Folder) (place : List String) : Option Entry :=
  if place = [] then some .folder else folder.entries.lookup place

/-- A folder with an entry at a place, which hides an earlier one. -/
def set (folder : Folder) (place : List String) (entry : Entry) : Folder :=
  ⟨(place, entry) :: folder.entries⟩

/-- The place that a part of a path leads to: an empty part and a single dot stay, two dots go up,
and a name goes down. There is nothing above the folder itself. -/
def onward (place : List String) (part : String) : List String :=
  if part = "" ∨ part = "." then place
  else if part = ".." then place.dropLast
  else place ++ [part]

/-- A folder with a folder at a place where nothing stood. -/
def openAt (folder : Folder) (place : List String) : Folder :=
  if (folder.find? place).isSome then folder else folder.set place .folder

/-- Goes along the parts of a path and opens every folder that is missing on the way. The result
has the place where the path ends. -/
def openAlong (folder : Folder) (place : List String) : List String → Folder × List String
  | [] => (folder, place)
  | part :: rest => (folder.openAt (onward place part)).openAlong (onward place part) rest

/-- A folder with one more entry under a path, and the folders on the way to it. -/
def put (folder : Folder) (path : String) (entry : Entry) : Folder :=
  let parts := partsOf path
  match entry with
  | .folder => (folder.openAlong [] parts).1
  | .file _ =>
    let opened := folder.openAlong [] parts.dropLast
    opened.1.set (onward opened.2 (parts.getLastD "")) entry

/-- Follows the parts of a path from a place, or from outside the folder. An empty part and a
single dot stay, two dots go up, and a name goes down. Only a folder can be passed through, and
nothing is known of what lies outside. -/
def follow (folder : Folder) : (place : Option (List String)) → List String →
    Except ReadFault Entry
  | none, [] => .ok .folder
  | none, part :: rest =>
    if part = "" ∨ part = "." ∨ part = ".." then folder.follow none rest
    else if longestName < part.utf8ByteSize then .error .nameTooLong
    else .error .notFound
  | some path, [] =>
    match folder.find? path with
    | some entry => .ok entry
    | none => .error .notFound
  | some path, part :: rest =>
    match folder.find? path with
    | none => .error .notFound
    | some (.file _) => .error .notFolder
    | some .folder =>
      if part = "" ∨ part = "." then folder.follow (some path) rest
      else if part = ".." then
        folder.follow (if path = [] then none else some path.dropLast) rest
      else if longestName < part.utf8ByteSize then .error .nameTooLong
      else folder.follow (some (path ++ [part])) rest

/-- The entry at the end of a path. A path that starts with a slash starts outside. -/
def resolve (folder : Folder) (path : String) : Except ReadFault Entry :=
  if path.toList.contains '\x00' then .error .nullInName
  else if path = "" then .error .notFound
  else if longestPath < path.utf8ByteSize then .error .nameTooLong
  else if path.toList.head? = some '/' then folder.follow none (partsOf path)
  else folder.follow (some []) (partsOf path)

/-- The text of a file's bytes. -/
def decode (bytes : ByteArray) : Except ReadFault String :=
  match String.fromUTF8? bytes with
  | some text => .ok text
  | none => .error .notText

/-- Reads the file at the end of a path as text. -/
def read (folder : Folder) (path : String) : Except ReadFault String :=
  match folder.resolve path with
  | .ok (.file bytes) => decode bytes
  | .ok .folder => .error .isFolder
  | .error fault => .error fault

end Folder

end Decaf
