import UsageAudit.Problem

/-!
# Folders

A folder holds files by their names. A path is walked from the folder on, by the steps between its
slashes; a step may stay where it is or go up again. What a path leads to is a file, a folder or
nothing, and a file can be read as a script if its bytes are text.
-/

namespace UsageAudit

/-- Files by the steps that lead to them. -/
structure Folder where
  files : List (List String × ByteArray)

namespace Folder

/-- The steps of a path between its slashes. -/
def steps (path : String) : List String :=
  (path.toList.splitOn '/').map String.ofList

/-- The files whose paths hold the given bytes. -/
def ofFiles (files : List (String × ByteArray)) : Folder :=
  ⟨files.map fun (path, bytes) => ((steps path).filter fun step => step != "" && step != ".", bytes)⟩

/-- The bytes of the file at a place. -/
def file? (folder : Folder) (place : List String) : Option ByteArray :=
  (folder.files.find? fun file => file.1 == place).map Prod.snd

/-- Whether a place is a folder: the whole folder, or one that a file lies in. -/
def isFolder (folder : Folder) (place : List String) : Bool :=
  place.isEmpty || folder.files.any fun file =>
    place.isPrefixOf file.1 && decide (place.length < file.1.length)

/-- Walks from a place on by the steps that are left. -/
def walk (folder : Folder) : List String → List String → Except FileFault (List String)
  | place, [] => .ok place
  | place, step :: rest =>
    if !folder.isFolder place then
      .error (if (folder.file? place).isSome then .insideFile else .missing)
    else if step == "" || step == "." then walk folder place rest
    else if step == ".." then walk folder place.dropLast rest
    else walk folder (place ++ [step]) rest

/-- Reads the file that a path leads to. -/
def read (folder : Folder) (path : String) : Except FileFault String :=
  if path.isEmpty || path.startsWith "/" then .error .missing
  else
    match folder.walk [] (steps path) with
    | .error fault => .error fault
    | .ok place =>
      match folder.file? place with
      | some bytes =>
        match String.fromUTF8? bytes with
        | some text => .ok text
        | none => .error .notText
      | none => .error (if folder.isFolder place then .folder else .missing)

end Folder

end UsageAudit
