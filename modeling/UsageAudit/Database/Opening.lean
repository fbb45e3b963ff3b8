import UsageAudit.Database.Stored
import UsageAudit.Folder

/-!
# Opening a database

The folders that lead to a database are made where they are missing, and so is its file. A file that
is there has to be a database or empty.
-/

namespace UsageAudit

/-- Makes the folders of a path from a place on, and gives the place they lead to. Steps that stay
where they are must have been left out. -/
def Folder.enter (folder : Folder) : List String → List String → Except FileFault (List String)
  | place, [] => .ok place
  | place, step :: rest =>
    if step == ".." then folder.enter place.dropLast rest
    else
      let place := place ++ [step]
      if (folder.file? place).isSome then .error (if rest.isEmpty then .taken else .insideFile)
      else folder.enter place rest

/-- The database that the bytes of a file are. No bytes are a database without rows. -/
def Database.ofFile (bytes : ByteArray) : Except Problem Database :=
  if bytes.isEmpty then .ok .empty
  else
    match Database.Pages.ofBytes? bytes with
    | none => .error (.storage "file is not a database")
    | some pages =>
      match (Database.Stored.ofPages? pages).bind Database.Stored.database? with
      | none => .error (.storage "database disk image is malformed")
      | some database => .ok database

/-- The database that is opened at a path of a folder. -/
def Database.openable (folder : Folder) (path : String) : Except Problem Database :=
  let steps := (Folder.steps path).filter fun step => step != "" && step != "."
  match folder.enter [] steps.dropLast with
  | .error fault => .error (.unreadable fault)
  | .ok place =>
    let place :=
      match steps.getLast? with
      | some ".." => place.dropLast
      | some step => place ++ [step]
      | none => place
    if folder.isFolder place then .error (.storage ("unable to open database file: " ++ path))
    else
      match folder.file? place with
      | some bytes => Database.ofFile bytes
      | none => .ok .empty

end UsageAudit
