import Tariff.Command.Run

open Tariff Tariff.Command

-- Adds what is found at a path. A directory can be opened and not be read.
def lookAt (files : Files) (path : String) : IO Files := do
  let place := Place.ofPath path
  try
    let bytes ← IO.FS.readBinFile path
    return files.put place bytes.toList
  catch _ =>
    try
      let _ ← IO.FS.Handle.mk path .read
      return { files with directories := place :: files.directories }
    catch _ => return files

-- Looks at a path and at all that it leads through.
def lookAlong (files : Files) (path : String) : IO Files := do
  let steps := Place.stepsOf path
  let paths := (List.range steps.length).map fun n => "/".intercalate (steps.take (n + 1))
  (paths.filter (!·.isEmpty)).foldlM lookAt files

def lookFor (args : List String) : IO Files :=
  match parse args with
  | .error _ => return Files.empty
  | .ok order => (inputs order ++ outputs order).foldlM lookAlong Files.empty

-- No command shows when an asset was registered, so the time does not matter here.
def main (args : List String) : IO UInt32 := do
  let before ← lookFor args
  let finish := run before .epoch args
  IO.print finish.printed
  for (place, bytes) in before.changed finish.files do
    IO.FS.writeBinFile place.path (ByteArray.mk bytes.toArray)
  IO.eprint finish.complaint
  return finish.code.toUInt32
