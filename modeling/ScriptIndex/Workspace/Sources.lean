import ScriptIndex.Workspace.Basic

/-!
# The script files of a workspace

All script files at or below a root are listed, each once and in order. Those with names that are no
texts have URLs too, and are listed by them. Without roots the editor is asked for the script files.
-/
namespace ScriptIndex.Workspace

def scriptsBelow (disk : Disk) (root : DiskPath) : List DiskPath :=
  match disk.locate root with
  | .error _ => []
  | .ok (place, _) =>
    ((disk.filesBelow place).map fun names => names.foldl DiskPath.join root).filter fun path =>
      path.extension? == some "pory"

/-- Whether a name, given by its bytes, ends in the extension of scripts and does not start with it. -/
def isScriptName (name : List UInt8) : Bool :=
  let ending := Text.bytes ".pory".toList
  ending.isSuffixOf name && ending.length < name.length

def strayScriptsBelow (disk : Disk) (root : DiskPath) : List String :=
  match disk.locate root with
  | .error _ => []
  | .ok (place, _) =>
    ((disk.straysBelow place).filter fun names => names.getLast?.any isScriptName).map fun names =>
      Resource.ofNameBytes (DiskPath.nameBytes root.parts ++ names)

/-- Texts in ascending order, each once. -/
def ordered (texts : List String) : List String :=
  (texts.foldl (fun m text => m.insert text ()) (∅ : NameMap Unit)).toList.map (·.1)

def scriptsInRoots (w : Workspace) : List String :=
  ordered ((w.roots.flatMap (scriptsBelow w.disk)).filterMap Resource.ofPath? ++
    w.roots.flatMap (strayScriptsBelow w.disk))

def sources (w : Workspace) : Except LookupError (List String) × Workspace :=
  match w.roots, w.connection with
  | _ :: _, _ => (.ok w.scriptsInRoots, w)
  | [], none => (.ok [], w)
  | [], some connection =>
    let (answer, w) := w.ask connection (Settings.readList Settings.readText) .sources
    match answer with
    | .ok paths => (.ok (paths.map fun path => Resource.canonical (Resource.fileMark ++ path)), w)
    | .error fault => (.error (.contentUnavailable "workspace" fault.message), w)

end ScriptIndex.Workspace
