import BraceMarkup.Command.Run

namespace BraceMarkup.Command

def diskName (location : List Text) : String :=
  String.ofList (Path.text { parts := location, anchor := .root })

def loadEntry (files : FileTree) (location : List Text) : IO FileTree := do
  let place := (← IO.currentDir) / diskName location
  if location <+: files.working ∨ !(← place.pathExists) then return files
  if ← place.isDir then return files.put location .directory
  return files.put location (.file (← IO.FS.readBinFile place).toList)

partial def loadBelow (files : FileTree) (location : List Text) : IO FileTree := do
  let files ← loadEntry files location
  let place := (← IO.currentDir) / diskName location
  if !(← place.isDir) then return files
  let mut files := files
  for entry in ← place.readDir do
    files ← loadBelow files (location ++ [entry.fileName.toList])
  return files

def loadPath (files : FileTree) (p : Path) : IO FileTree := do
  let mut files := files
  for n in List.range p.parts.length do
    files ← loadEntry files (Path.direct files.working { p with parts := p.parts.take n })
  loadBelow files (p.direct files.working)

def loadFiles (o : Options) : IO FileTree := do
  let here := Path.ofText (← IO.currentDir).toString.toList
  let mut files : FileTree := { working := here.parts }
  for p in o.paths do
    files ← loadPath files p
    files ← loadEntry files ((p.withSuffix ".html".toList).direct files.working)
  match o.destination with
  | .below dir => loadPath files dir
  | .beside | .unset => return files

def storeFiles (before after : FileTree) : IO Unit := do
  for location in after.directories do
    if before.find? location ≠ some .directory then IO.FS.createDirAll (diskName location)
  for (location, bytes) in after.changedSince before do
    IO.FS.writeBinFile (diskName location) ⟨bytes.toArray⟩

def runOnDisk (arguments : List Text) : IO UInt32 := do
  let files ← match Options.ofArguments arguments with
    | .ok options => loadFiles options
    | .error _ => pure {}
  match run arguments files with
  | .error fault =>
    IO.eprintln (String.ofList fault.message)
    return 1
  | .ok (status, console) =>
    storeFiles files console.files
    IO.print (String.ofList console.output)
    IO.eprint (String.ofList console.log)
    return status.code.toUInt32

end BraceMarkup.Command

def main (arguments : List String) : IO UInt32 :=
  BraceMarkup.Command.runOnDisk (arguments.map String.toList)
