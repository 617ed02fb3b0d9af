import Std.Data.TreeMap
import FrameRelay.Kernel.Basic
import FrameRelay.Store.Path
import FrameRelay.Text.Document

/-! The folder that a run writes to: directories and files by path. -/

namespace FrameRelay

inductive Entry where
  | directory
  | text (content : String)
  | image (width height : Nat) (samples : Array UInt16)
  deriving Repr, DecidableEq, Inhabited

/-- A folder is seen from inside. A place in it is the names on the way there; `/` stands first
for a place below the root, and `..` for each step out of the folder. -/
structure Folder where
  entries : Std.TreeMap (List String) Entry
  deriving Inhabited

/-- The place above a place. The root lies above itself. -/
def placeAbove (place : List String) : List String :=
  match place.getLast? with
  | none | some ".." => place ++ [".."]
  | some "/" => place
  | some _ => place.dropLast

/-- Where a path starts from, and its parts behind that. -/
def startOf (path : String) : List String × List String :=
  if path.startsWith "/" then (["/"], (segments path).drop 1) else ([], segments path)

/-- The parts of a new directory's path that are made on the way, and those that have to be there.
A point at the end names nothing new, and then neither does the part before it. -/
def splitMade (parts : List String) : List String × List String :=
  let named := dropSlashes parts
  let points := named.reverse.takeWhile stays
  if points.isEmpty then (named, []) else named.splitAt (named.length - points.length - 1)

namespace Folder

def empty : Folder := ⟨∅⟩

/-- The entry at a place. The folder itself, the root and what lies above are directories. -/
def entryAt? (folder : Folder) (place : List String) : Option Entry :=
  if place.all fun name => name == "/" || name == ".." then some .directory
  else folder.entries[place]?

def isDirectory (folder : Folder) (place : List String) : Bool :=
  folder.entryAt? place == some .directory

def put (folder : Folder) (place : List String) (entry : Entry) : Folder :=
  ⟨folder.entries.insert place entry⟩

def enter (folder : Folder) (place : List String) (name : String) :
    Except PathFault (List String) :=
  if !folder.isDirectory place then .error .notDirectory
  else if stays name then .ok place
  else if name == ".." then .ok (placeAbove place)
  else if maxName < name.utf8ByteSize then .error .tooLong
  else .ok (place ++ [name])

/-- Follows the parts of a path from a place; all on the way has to be there. -/
def follow (folder : Folder) (place : List String) : List String → Except PathFault (List String)
  | [] => .ok place
  | part :: rest => do
    let next ← folder.enter place part
    if (folder.entryAt? next).isNone then throw .missing
    folder.follow next rest

/-- Follows parts from a place and makes the directories that are not there. Those that were made
stay when the rest fails. -/
def makeWay (folder : Folder) (place : List String) :
    List String → Except PathFault (List String) × Folder
  | [] => (.ok place, folder)
  | part :: rest =>
    match folder.enter place part with
    | .error fault => (.error fault, folder)
    | .ok next =>
      if (folder.entryAt? next).isNone then (folder.put next .directory).makeWay next rest
      else folder.makeWay next rest

def reach (folder : Folder) (place parts : List String) : Except PathFault Unit := do
  if !folder.isDirectory (← folder.follow place parts) then throw .present

/-- Makes a directory with all above it. What was made stays when the rest fails. -/
def makeDirectory (folder : Folder) (path : String) : Except PathFault Unit × Folder :=
  if path.isEmpty then (.ok (), folder)
  else
    match checkPath path with
    | .error fault => (.error fault, folder)
    | .ok () =>
      let (start, parts) := startOf path
      let (made, there) := splitMade parts
      match folder.makeWay start made with
      | (.error fault, folder) => (.error fault, folder)
      | (.ok place, folder) => (folder.reach place there, folder)

/-- Writes a file into a directory that exists, over an older one. The last part of the path has to
name it, without a slash behind. -/
def write (folder : Folder) (path : String) (entry : Entry) : Except PathFault Folder := do
  checkPath path
  let (start, parts) := startOf path
  let named := dropSlashes parts
  let name := named.getLastD "."
  let place ← folder.follow start named.dropLast
  if !folder.isDirectory place then throw .notDirectory
  if isStep name || named.length < parts.length then throw .isDirectory
  let site ← folder.enter place name
  if folder.isDirectory site then throw .isDirectory
  return folder.put site entry

/-- The files below the folder with their paths, in the order of their places. -/
def files (folder : Folder) : List (String × Entry) :=
  folder.entries.toList.filterMap fun (place, entry) =>
    if entry == .directory || place.head? == some "/" || place.head? == some ".." then none
    else some (String.intercalate "/" place, entry)

end Folder

namespace Kernel

def Pose.document (pose : Pose) : Document :=
  .object [("pts", .int pose.pts), ("x", .double pose.x), ("y", .double pose.y),
    ("intensity", .double pose.intensity)]

def PoseFile.document (file : PoseFile) : Document :=
  .object [("model", .text file.model), ("rolling_shutter", .bool file.rollingShutter),
    ("frames", .list (file.poses.toList.map Pose.document))]

end Kernel

namespace Folder

/-- Writes a pose file; where it cannot be written, nothing but the directories for it is. -/
def writePoses (folder : Folder) (file : Kernel.PoseFile) : Folder :=
  match folder.makeDirectory (parentPath file.path) with
  | (.error _, folder) => folder
  | (.ok (), folder) =>
    match folder.write file.path (.text file.document.write) with
    | .ok folder => folder
    | .error _ => folder

def keep (folder : Folder) : List Artifact → Folder
  | [] => folder
  | .poses file :: rest => (folder.writePoses file).keep rest
  | .note _ :: rest => folder.keep rest

end Folder

def notesOf (artifacts : List Artifact) : List String :=
  artifacts.filterMap fun
    | .note line => some line
    | .poses _ => none

end FrameRelay
