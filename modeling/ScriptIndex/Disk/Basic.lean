import ScriptIndex.Disk.Fault
import ScriptIndex.Disk.Path
import ScriptIndex.Text.Bytes

/-!
# Disks

A disk holds files and directories at places, a place being the names on the way to it from the top.
A path is followed name by name from the top; every name but the last has to be a directory. Paths and
names are texts. A file system takes any bytes as a name, so there can be files that no path leads to.
-/
namespace ScriptIndex

inductive Disk.Node where
  | file (content : List UInt8)
  | directory
  deriving DecidableEq, Repr

structure Disk where
  nodes : List (List String × Disk.Node) := []
  /-- The files with a name on the way to them that is not UTF-8: the directory of the first such name, and
  the bytes of the names from there on. -/
  strays : List (List String × List (List UInt8)) := []
  deriving Repr

namespace Disk

/-- What is at a place. The top is always a directory. -/
def node? (disk : Disk) (place : List String) : Option Node :=
  if place.isEmpty then some .directory
  else (disk.nodes.find? fun entry => entry.1 == place).map (·.2)

def maxName : Nat := 255

def follow (disk : Disk) (place : List String) : List String → Except ReadFault (List String)
  | [] => .ok place
  | piece :: rest =>
    match disk.node? place with
    | none => .error .notFound
    | some (.file _) => .error .notDirectory
    | some .directory =>
      if piece = "" ∨ piece = "." then follow disk place rest
      else if piece = ".." then follow disk place.dropLast rest
      else if piece.utf8ByteSize > maxName then .error .longName
      else follow disk (place ++ [piece]) rest

def locate (disk : Disk) (path : DiskPath) : Except ReadFault (List String × Node) :=
  if path.text.toList.contains '\x00' then .error .zeroByte
  else if !path.isAbsolute then .error .notFound
  else
    match disk.follow [] path.pieces with
    | .error fault => .error fault
    | .ok place =>
      match disk.node? place with
      | some node => .ok (place, node)
      | none => .error .notFound

def read (disk : Disk) (path : DiskPath) : Except ReadFault String :=
  match disk.locate path with
  | .error fault => .error fault
  | .ok (_, .directory) => .error .isDirectory
  | .ok (_, .file content) =>
    match Text.decode? content with
    | some text => .ok text
    | none => .error .notText

def isFile (disk : Disk) (path : DiskPath) : Bool :=
  match disk.locate path with
  | .ok (_, .file _) => true
  | _ => false

/-- The files at or below a place, each by the names that lead from there to it. -/
def filesBelow (disk : Disk) (place : List String) : List (List String) :=
  disk.nodes.filterMap fun
    | (p, .file _) => if place.isPrefixOf p then some (p.drop place.length) else none
    | (_, .directory) => none

/-- The strays below a place, each by the names that lead from there to it. -/
def straysBelow (disk : Disk) (place : List String) : List (List (List UInt8)) :=
  disk.strays.filterMap fun (directory, names) =>
    if place.isPrefixOf directory then some (DiskPath.nameBytes (directory.drop place.length) ++ names)
    else none

def erase (disk : Disk) (place : List String) : Disk :=
  { disk with nodes := disk.nodes.filter fun entry => entry.1 != place }

def insert (disk : Disk) (place : List String) (node : Node) : Disk :=
  { disk with nodes := (place, node) :: (disk.erase place).nodes }

def makeDirectory (disk : Disk) (place : List String) : Disk :=
  if (disk.node? place).isSome then disk else disk.insert place .directory

/-- The place that a path names when all of its names are directories. -/
def placeOf (path : DiskPath) : List String :=
  path.parts.foldl (fun place part => if part = ".." then place.dropLast else place ++ [part]) []

/-- Puts a file or a directory at a path, and makes the directories on the way to it. A directory is
not replaced. -/
def write (disk : Disk) (path : DiskPath) (node : Node) : Disk :=
  let place := placeOf path
  let disk := ((List.range place.length).map place.take).foldl makeDirectory disk
  if disk.node? place = some .directory then disk else disk.insert place node

def remove (disk : Disk) (path : DiskPath) : Bool × Disk :=
  match disk.locate path with
  | .ok (place, .file _) => (true, disk.erase place)
  | _ => (false, disk)

end Disk
end ScriptIndex
