import StructSketch.CommandLine.Program

/-!
# A world in memory

The program can run on files that are held in memory.

* **`FileTree`** holds files and directories by their places: the names on the way from the root.
* **`FileTree.walk`** follows steps through directories; `.` stays, and `..` leads up, from the
  root to itself.
* **`FileTree.openPlace`** and **`FileTree.createPlace`** are the places that a path leads to,
  or why the system refuses it.
* **`World`** is a file tree with standard streams, and **`World.host`** are its operations.

A relative path starts in a directory that lies somewhere below the root. Of what is outside of
it, only the directories that lead to it are known.
-/

namespace StructSketch.CommandLine

/-- What stands at a place. -/
inductive Node where
  | file (content : List UInt8)
  | directory
deriving DecidableEq

/-- Files and directories by their places. -/
abbrev FileTree := List (List String × Node)

/-- Why the system refuses a path. -/
inductive PathError where
  | notFound
  | notDirectory
  | isDirectory
  | nameTooLong
deriving DecidableEq

/-- The words of the system. -/
def PathError.text : PathError → String
  | .notFound => "No such file or directory (os error 2)"
  | .notDirectory => "Not a directory (os error 20)"
  | .isDirectory => "Is a directory (os error 21)"
  | .nameTooLong => "File name too long (os error 36)"

/-! ## Paths -/

/-- Splits characters at slashes. -/
def splitSlashes (current : List Char) : List Char → List (List Char)
  | [] => [current.reverse]
  | c :: rest =>
    if c = '/' then current.reverse :: splitSlashes [] rest else splitSlashes (c :: current) rest

/-- The parts of a path between its slashes, the empty ones too. -/
def pathParts (text : String) : List String := (splitSlashes [] text.toList).map String.ofList

/-- The steps of a path. -/
def pathSteps (text : String) : List String := (pathParts text).filter (· ≠ "")

/-- A path: where it starts, the steps through directories, and the last step. -/
structure Path where
  absolute : Bool
  through : List String
  last : String
  /-- Whether it can only lead to a directory. -/
  toDirectory : Bool

/-- The path that a text denotes. Without a step it leads to where it starts. -/
def Path.ofText (text : String) : Path :=
  { absolute := text.toList.head? = some '/'
    through := (pathSteps text).dropLast
    last := (pathSteps text).getLast?.getD "."
    toDirectory := (pathParts text).getLast?.any fun part => part = "" ∨ part = "." ∨ part = ".." }

/-- The path that a text denotes for the system, which takes no text of 4096 bytes or more. -/
def Path.ofText? (text : String) : Except PathError Path :=
  if text.utf8ByteSize < 4096 then .ok (Path.ofText text) else .error .nameTooLong

/-- Where one step leads to from a directory. A name has at most 255 bytes. -/
def stepFrom (place : List String) (step : String) : Except PathError (List String) :=
  if step = "." then .ok place
  else if step = ".." then .ok place.dropLast
  else if step.utf8ByteSize > 255 then .error .nameTooLong
  else .ok (place ++ [step])

/-! ## File trees -/

namespace FileTree

/-- The place where relative paths start. -/
def start : List String := ["tmp", "start"]

/-- The node at a place; the root is a directory. -/
def get? (tree : FileTree) (place : List String) : Option Node :=
  if place = [] then some .directory else tree.lookup place

/-- The node at a place becomes another one. -/
def put (tree : FileTree) (place : List String) (node : Node) : FileTree :=
  (place, node) :: tree.filter fun (other, _) => other ≠ place

/-- Makes a directory, and those on the way to it, where there is nothing. -/
def makeDirectory (tree : FileTree) (place : List String) : FileTree :=
  (List.range (place.length + 1)).foldl (fun tree count =>
    if (tree.get? (place.take count)).isSome then tree
    else tree.put (place.take count) .directory) tree

/-- Puts a file into a directory, which is made if need be. -/
def makeFile (tree : FileTree) (place : List String) (content : List UInt8) : FileTree :=
  (tree.makeDirectory place.dropLast).put place (.file content)

/-- Where steps through directories lead to. -/
def walk (tree : FileTree) (place : List String) : List String → Except PathError (List String)
  | [] => .ok place
  | step :: rest =>
    match stepFrom place step with
    | .error error => .error error
    | .ok next =>
      match tree.get? next with
      | some .directory => tree.walk next rest
      | some (.file _) => .error .notDirectory
      | none => .error .notFound

/-- The place of the directory in which the last step of a path is taken. -/
def lastDirectory (tree : FileTree) (path : Path) : Except PathError (List String) :=
  tree.walk (if path.absolute then [] else start) path.through

/-- The place of a file or directory that is opened for reading. -/
def openPlace (tree : FileTree) (text : String) : Except PathError (List String) := do
  let path ← Path.ofText? text
  let place ← stepFrom (← tree.lastDirectory path) path.last
  match tree.get? place with
  | none => .error .notFound
  | some (.file _) => if path.toDirectory then .error .notDirectory else .ok place
  | some .directory => .ok place

/-- The place of a file that is created or emptied. -/
def createPlace (tree : FileTree) (text : String) : Except PathError (List String) := do
  let path ← Path.ofText? text
  let directory ← tree.lastDirectory path
  if path.toDirectory then .error .isDirectory
  else
    let place ← stepFrom directory path.last
    if tree.get? place = some .directory then .error .isDirectory else .ok place

/-- The content of the file that a path leads to. -/
def content? (tree : FileTree) (path : String) : Option (List UInt8) :=
  match tree.openPlace path with
  | .ok place =>
    match tree.get? place with
    | some (.file content) => some content
    | _ => none
  | .error _ => none

end FileTree

/-- A file tree with standard streams. -/
structure World where
  tree : FileTree
  standardInput : List UInt8
  standardOutput : List UInt8 := []
  standardError : List UInt8 := []

/-- Where a program reads from or writes to. -/
inductive Endpoint where
  | standard
  | node (place : List String)

namespace World

/-- Reads up to the end. -/
def readAll (endpoint : Endpoint) : StateM World (Except String (List UInt8)) := fun world =>
  match endpoint with
  | .standard => (.ok world.standardInput, { world with standardInput := [] })
  | .node place =>
    match world.tree.get? place with
    | some (.file content) => (.ok content, world)
    | some .directory => (.error PathError.isDirectory.text, world)
    | none => (.error PathError.notFound.text, world)

/-- Writes at the end. -/
def writeAll (endpoint : Endpoint) (text : List UInt8) : StateM World (Except String Unit) :=
  fun world =>
    match endpoint with
    | .standard => (.ok (), { world with standardOutput := world.standardOutput ++ text })
    | .node place =>
      match world.tree.get? place with
      | some (.file content) =>
        (.ok (), { world with tree := world.tree.put place (.file (content ++ text)) })
      | some .directory => (.error PathError.isDirectory.text, world)
      | none => (.error PathError.notFound.text, world)

/-- Opens a file or directory for reading. -/
def openFile (path : String) : StateM World (Except String Endpoint) := fun world =>
  match world.tree.openPlace path with
  | .ok place => (.ok (.node place), world)
  | .error error => (.error error.text, world)

/-- Creates or empties a file. -/
def createFile (path : String) : StateM World (Except String Endpoint) := fun world =>
  match world.tree.createPlace path with
  | .ok place => (.ok (.node place), { world with tree := world.tree.put place (.file []) })
  | .error error => (.error error.text, world)

/-- The operations of a world. -/
def host : Host (StateM World) Endpoint Endpoint where
  standardInput := .standard
  standardOutput := .standard
  openFile := openFile
  createFile := createFile
  readAll := readAll
  writeAll := writeAll
  flush _ := pure (.ok ())
  print text := modify fun world =>
    { world with standardOutput := world.standardOutput ++ Text.bytes text }
  report text := modify fun world =>
    { world with standardError := world.standardError ++ Text.bytes text }

/-- A world with given files and directories below the start directory. -/
def ofFiles (files : List (String × List UInt8)) (directories : List String)
    (standardInput : List UInt8) : World :=
  let place (name : String) := FileTree.start ++ (pathSteps name).filter (· ≠ ".")
  let withDirectories := directories.foldl
    (fun tree name => FileTree.makeDirectory tree (place name))
    (FileTree.makeDirectory [] FileTree.start)
  { tree := files.foldl
      (fun tree (name, content) => FileTree.makeFile tree (place name) content) withDirectories
    standardInput }

end World

end StructSketch.CommandLine
