import SchemaAtlas.Command

/-!
# The program

Looks the path arguments up in the file system, runs the command on what was found, and prints the
answer.
-/

namespace SchemaAtlas

/-- A file or directory with everything below it. -/
partial def snapshot (path : String) : IO FileTree := do
  let place := (← IO.currentDir) / path
  if ← place.isDir then
    let entries ← place.readDir
    let names := (entries.map (·.fileName)).toList.mergeSort
    let children ← names.mapM fun name => do
      return (name, ← snapshot (FileTree.childLabel path name))
    return .directory children
  else
    try
      return .file (← IO.FS.readBinFile path)
    catch _ =>
      return .locked

/-- What an argument leads to, as far as it is a path. -/
def lookUp (path : String) : IO Found := do
  if path = "" then return .missing
  let place := (← IO.currentDir) / path
  try
    let _ ← place.metadata
    return .tree (← snapshot path)
  catch
    | .inappropriateType .. => return .notADirectory
    | _ => return .missing

end SchemaAtlas

open SchemaAtlas in
def main (args : List String) : IO UInt32 := do
  let found ← args.mapM fun arg => do
    return (arg, ← lookUp arg)
  let find (path : String) : Found := (found.lookup path).getD .missing
  let answer := Command.run find (← IO.getEnv "LOG_LEVEL") args
  for record in answer.log do
    IO.eprintln record.text
  IO.print answer.stdout
  IO.eprint answer.stderr
  return answer.exit.toUInt32
