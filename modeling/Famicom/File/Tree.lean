import Famicom.File.Error

/-!
# File trees

Files in directories, and how a path finds one.  A path is a list of names divided by slashes;
each name is looked up in the directory that the names before it lead to.  A path with a slash in
front starts at the root, any other in the directory where the tree is at home.
-/

namespace Famicom

/-- Files with contents of some type.  Files and directories are given by the names that lead to
them from the root. -/
structure FileTree (α : Type) where
  home : List String
  /-- Directories that need not hold a file. -/
  directories : List (List String)
  files : List (List String × α)

namespace FileTree

variable {α : Type}

/-- The longest name, in bytes. -/
def maxName : Nat := 255

/-- The longest path, in bytes. -/
def maxPath : Nat := 4095

def isDirectory (tree : FileTree α) (place : List String) : Bool :=
  place.isPrefixOf tree.home || tree.directories.any place.isPrefixOf ||
    tree.files.any fun file => place.isPrefixOf file.1 && place != file.1

def file? (tree : FileTree α) (place : List String) : Option α :=
  (tree.files.find? (·.1 == place)).map (·.2)

def enter (tree : FileTree α) (place : List String) : Except FileError Unit :=
  if tree.isDirectory place then .ok ()
  else if (tree.file? place).isSome then .error .notDirectory
  else .error .notFound

def follow (tree : FileTree α) (place : List String) (name : String) :
    Except FileError (List String) := do
  tree.enter place
  if name.isEmpty || name == "." then return place
  else if name == ".." then return place.dropLast
  else if maxName < name.utf8ByteSize then throw .nameTooLong
  else return place ++ [name]

def origin (tree : FileTree α) (path : String) : List String :=
  if path.startsWith "/" then [] else tree.home

def resolve (tree : FileTree α) (path : String) : Except FileError (List String) :=
  if maxPath < path.utf8ByteSize then .error .nameTooLong
  else (path.splitOn "/").foldlM tree.follow (tree.origin path)

def read (tree : FileTree α) (path : String) : Except FileError α := do
  let place ← tree.resolve path
  if tree.isDirectory place then throw .isDirectory
  else
    match tree.file? place with
    | some contents => return contents
    | none => throw .notFound

def withoutSlashes (path : String) : String :=
  String.ofList (path.toList.reverse.dropWhile (· == '/')).reverse

/-- Where a path leads that may name a new file.  One that ends in a slash can only name a
directory. -/
def resolveNew (tree : FileTree α) (path : String) : Except FileError (List String) := do
  if maxPath < path.utf8ByteSize then throw .nameTooLong
  let names := (withoutSlashes path).splitOn "/"
  let parent ← names.dropLast.foldlM tree.follow (tree.origin path)
  tree.enter parent
  if path.endsWith "/" then throw .isDirectory
  else tree.follow parent (names.getLast?.getD "")

def write (tree : FileTree α) (path : String) (contents : α) :
    Except FileError (FileTree α) := do
  let place ← tree.resolveNew path
  if tree.isDirectory place then throw .isDirectory
  else return { tree with files := (place, contents) :: tree.files.filter (·.1 != place) }

end FileTree

end Famicom
