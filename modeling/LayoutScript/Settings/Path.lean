/-!
Paths as text. A path is normalised before it is used or shown: empty parts and
single dots vanish, double dots stay, and two leading slashes are kept apart from
one or more than two.
-/

namespace LayoutScript

structure Path where
  root : String
  parts : List String
deriving Repr, DecidableEq, Inhabited

namespace Path

def rootOf (text : List Char) : String :=
  match text with
  | '/' :: '/' :: '/' :: _ => "/"
  | '/' :: '/' :: _ => "//"
  | '/' :: _ => "/"
  | _ => ""

def ofText (text : String) : Path :=
  ⟨rootOf text.toList, (text.splitOn "/").filter fun part => part ≠ "" && part ≠ "."⟩

def text (path : Path) : String :=
  if path.root.isEmpty && path.parts.isEmpty then "."
  else path.root ++ "/".intercalate path.parts

def append (path : Path) (parts : List String) : Path := { path with parts := path.parts ++ parts }

/-- Replaces a leading tilde by the home directory; other users have none. -/
def expandHome? (home : String) (path : Path) : Option Path :=
  match path.root, path.parts with
  | "", first :: rest =>
      if first = "~" then some ((ofText home).append rest)
      else if first.toList.head? = some '~' then none
      else some path
  | _, _ => some path

end Path

/-- What a path leads to. -/
inductive Entry where
  | missing
  | directory
  | nameTooLong
  | file (text : String)
deriving Repr, DecidableEq, Inhabited

/-- A view of a file system from the working directory. -/
abbrev Files := Path → Entry

namespace Files

/-- The greatest number of bytes in one part of a path. -/
def partLimit : Nat := 255

/-- The greatest number of bytes in a path. -/
def pathLimit : Nat := 4095

/-- The entry that a list of parts names in a listing of files. Every leading part
of a listed file is a directory. -/
def entryAt (listing : List (List String × String)) (parts : List String) : Entry :=
  match listing.find? fun file => file.1 = parts with
  | some file => .file file.2
  | none =>
      if parts.isEmpty || listing.any fun file => parts.isPrefixOf file.1 then .directory
      else .missing

/-- Walks along a path from a directory outside the listing. Double dots lead to other
such directories, and nothing else is found there. -/
def walkOutside : List String → Entry
  | [] => .directory
  | part :: parts =>
      if part = ".." then walkOutside parts
      else if partLimit < part.utf8ByteSize then .nameTooLong
      else .missing

/-- Walks along a path from a directory of the listing. A double dot leads back from a
directory, from the topmost one to the outside. -/
def walk (listing : List (List String × String)) : List String → List String → Entry
  | location, [] => entryAt listing location
  | location, part :: parts =>
      match entryAt listing location with
      | .directory =>
          if part = ".." then
            if location.isEmpty then walkOutside parts else walk listing location.dropLast parts
          else if partLimit < part.utf8ByteSize then .nameTooLong
          else walk listing (location ++ [part]) parts
      | _ => .missing

/-- The files of a listing of relative names. No path with a null character leads
anywhere. -/
def ofListing (listing : List (String × String)) : Files := fun path =>
  if path.text.toList.contains '\x00' then .missing
  else if pathLimit < path.text.utf8ByteSize then .nameTooLong
  else if path.root.isEmpty then
    walk (listing.map fun file => ((Path.ofText file.1).parts, file.2)) [] path.parts
  else walkOutside path.parts

end Files

end LayoutScript
