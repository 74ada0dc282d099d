import Visibility.CommandLine.Run

set_option autoImplicit false
set_option relaxedAutoImplicit false

/-!
The program: it looks at the files that a command needs, runs the command on them, and prints.
-/

namespace Visibility

/-- Adds what a path names to a tree, directories with all that is in them.  A path that leads through
links is added as a link to the place it leads to. -/
private partial def snapshot (tree : FileTree) (path : Path) : IO FileTree := do
  let working ← IO.currentDir
  let absolute := Path.join working.toString path
  let steps (path : Path) := (Path.parts path).filter fun part => part ≠ "" && part ≠ "."
  try
    let real := (← IO.FS.realPath absolute).toString
    let tree :=
      if steps absolute = steps real || (steps absolute).contains ".." then tree
      else tree.insert (steps absolute) (.link real)
    if (tree.nodes.lookup (steps real)).isSome then return tree
    let metadata ← (working / real).metadata
    match metadata.type with
    | .dir => do
      let mut tree := tree.insert (steps real) .directory
      for entry in ← (working / real).readDir do
        tree ← snapshot tree (Path.join real entry.fileName)
      return tree
    | .file => do
      let text := String.fromUTF8? (← IO.FS.readBinFile real)
      return tree.insert (steps real) (.file text)
    | _ => return tree
  catch _ => return tree

/-- The files that an invocation can read. -/
private def needed (surroundings : CommandLine.Surroundings)
    (invocation : CommandLine.Invocation) : IO FileTree := do
  let configs := invocation.config.toList
  let tree ← configs.foldlM snapshot surroundings.files
  let surroundings := { surroundings with files := tree }
  let objects := match invocation.command with
    | .groups command => command.object.toList
    | .tables _ => []
  match CommandLine.loadConfig surroundings invocation.config with
  | .error _ => return tree
  | .ok config =>
    let ofModule (directory : Path) :=
      [Path.join (Path.join directory "Resources") "config", Path.join directory "config"]
    let paths := objects ++ config.schemaFile.toList ++ config.moduleDirs.flatMap ofModule ++
      config.mappingDirs tree
    paths.foldlM snapshot tree

end Visibility

open Visibility in
def main (args : List String) : IO UInt32 := do
  let working := (← IO.currentDir).toString
  let place := (Path.parts working).filter fun part => part ≠ ""
  let empty : FileTree := ({} : FileTree).insert place .directory
  let surroundings : CommandLine.Surroundings :=
    { files := { empty with workingDirectory := place }
      configFile := ← IO.getEnv "FIELDGATE_CONFIG"
      projectDir := ← IO.getEnv "FIELDGATE_PROJECT_DIR" }
  let files ← match CommandLine.parse args surroundings.configFile with
    | .ok invocation => needed surroundings invocation
    | .error _ => pure surroundings.files
  let outcome := CommandLine.run { surroundings with files := files } args
  IO.print outcome.stdout
  IO.eprint outcome.stderr
  return outcome.code.toUInt32
