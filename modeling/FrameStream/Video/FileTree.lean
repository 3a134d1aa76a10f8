/-!
# Files by their paths

A tree knows its files and folders, and the folder that a path starts from unless it starts from the root. A path is
walked step by step: a step may stay where it is, go up, or go down, and only from a folder; a path ends at a file
only if its last step names one. Above the root there is nothing to go up to.
-/

namespace FrameStream.Video

/-- A place in a tree, as the steps that lead down to it from the root. -/
abbrev Steps := List String

/-- The characters of a path, cut at every slash. -/
def cutAtSlashes : List Char → List (List Char)
  | [] => [[]]
  | c :: rest =>
    match c, cutAtSlashes rest with
    | '/', cut => [] :: cut
    | c, first :: cut => (c :: first) :: cut
    | c, [] => [[c]]

def steps (path : String) : Steps := (cutAtSlashes path.toList).map String.ofList

structure FileTree where
  files : List Steps
  folders : List Steps
  /-- The folder that a path starts from unless it starts from the root. -/
  here : Steps

namespace FileTree

/-- The tree with these files and empty folders, all given by their paths from the folder `here`. -/
def ofPaths (here : Steps) (files folders : List String) : FileTree where
  files := files.map (here ++ steps ·)
  folders := here :: folders.map (here ++ steps ·)
  here := here

/-- Whether some steps lead to a file. -/
def hasFile (t : FileTree) (place : Steps) : Bool := t.files.contains place

/-- Whether some steps lead to a folder: the root, one that is listed, or one on the way to such a folder or to a
file. -/
def hasFolder (t : FileTree) (place : Steps) : Bool :=
  place = [] || t.folders.any (place.isPrefixOf ·) || t.files.any fun file => place ≠ file && place.isPrefixOf file

/-- Whether a path, walked on from `place`, ends at a file. -/
def leadsToFile (t : FileTree) (place : Steps) : Steps → Bool
  | [] => t.hasFile place
  | s :: rest =>
    if t.hasFolder place then
      if s = "" ∨ s = "." then t.leadsToFile place rest
      else if s = ".." then t.leadsToFile place.dropLast rest
      else t.leadsToFile (place ++ [s]) rest
    else false

/-- Whether a path is that of a file. -/
def isFile (t : FileTree) (path : String) : Bool :=
  path ≠ "" && t.leadsToFile (if path.toList.head? = some '/' then [] else t.here) (steps path)

end FileTree
end FrameStream.Video
