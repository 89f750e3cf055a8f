import LatentCache.Command.Line

/-!
# The program

Reads the environment and the settings file that it names, runs the command line and prints its
outcome. Storage lives as long as the process.
-/

namespace LatentCache.Program

def readEnvironment : IO Environment := do
  let texts ← Variable.all.mapM fun v => do
    let text? ← IO.getEnv v.name
    return (v, text?)
  return fun v => (texts.lookup v).join

/-- A file tree that holds the file of a path, if it can be read. -/
def readFile (path : String) : IO FileTree := do
  try
    let content ← IO.FS.readBinFile path
    let p := Path.ofText path
    let (_, files) := FileTree.ensureDirectories p.names.length p.parent .empty
    return (files.write path content.toList).toOption.getD files
  catch _ => return .empty

def readFiles (env : Environment) : IO FileTree :=
  match env .config with
  | none => return .empty
  | some path => readFile path

end LatentCache.Program

open LatentCache in
def main (args : List String) : IO UInt32 := do
  let env ← Program.readEnvironment
  let files ← Program.readFiles env
  let (outcome, _) := (CommandLine.ofArguments args).run env (.ofFiles files)
  (← IO.getStdout).putStr (Command.lines outcome.output)
  (← IO.getStderr).putStr (Command.lines outcome.errors)
  return UInt32.ofNat outcome.code
