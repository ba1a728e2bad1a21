import VectorTable.Error

/-!
# VectorTable — identifiers

A name may hold any characters but NUL. In a statement it stands between double quotes with its
own quotes doubled, so no name is ever rejected for the characters in it; only names that the
database cannot keep whole are.
-/

namespace VectorTable

namespace Identifier

/-- Refuses a name that is empty, holds NUL or is too long. `what` says what the name is for. -/
def check (what name : String) : Except Error Unit :=
  if name.isEmpty then .error (.config (.emptyName what))
  else if name.toList.contains '\x00' then .error (.config (.nameWithNul what name))
  else if maxNameBytes < name.utf8ByteSize then .error (.config (.longName what name))
  else .ok ()

/-- A name between double quotes, its own quotes doubled. -/
def quoteChars (name : List Char) : List Char :=
  '"' :: (name.flatMap (fun c => if c = '"' then ['"', '"'] else [c]) ++ ['"'])

def quote (name : String) : String := String.ofList (quoteChars name.toList)

/-- A name in a schema. -/
def qualified (schema name : String) : String := quote schema ++ "." ++ quote name

/-- The first repetition in a list of names, given the names before it. -/
def firstRepeated? (seen : List String) : List String → Option String
  | [] => none
  | name :: rest =>
    if name ∈ seen then some name else firstRepeated? (name :: seen) rest

/-- Refuses column names that are not pairwise different. The reserved ones come first, each
with its role. -/
def checkDistinct (reserved : List (String × String)) (metadata : List String) :
    Except Error Unit :=
  checkReserved [] reserved
where
  checkReserved (seen : List String) : List (String × String) → Except Error Unit
    | [] =>
      match firstRepeated? seen metadata with
      | some name => .error (.config (.repeatedMetadataColumn name))
      | none => .ok ()
    | (role, name) :: rest =>
      if name ∈ seen then .error (.config (.sharedColumn role name))
      else checkReserved (name :: seen) rest

end Identifier

end VectorTable
