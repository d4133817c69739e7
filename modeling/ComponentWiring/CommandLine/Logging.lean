import ComponentWiring.FileBuild

/-! # Machines and log files

A run may log to a file, which is opened once the settings are known and in front of the build; each
day has a file of its own. The lines that are added to it later are not written to the tree. Where a
document is the log file itself, the reading of a machine tells what these lines make of its text.

* `LogFile.open?`: opens a file to which lines are added.
* `LogFile.openDaily`: opens the log file of a day, in a directory that is made if need be.
* `Machine`: what the arguments, the environment and the file tree of a run do not tell.
* `Machine.startLogging`: starts logging as settings say.
-/

namespace ComponentWiring.CommandLine
set_option autoImplicit false

namespace LogFile

/-- The stem of the name of a log file where the settings give a path without one. -/
def defaultStem : String := "influx"

/-- The tree with a file at a path to which lines are added, unless the file cannot be opened. -/
def open? (path : String) (tree : File.Tree) : Option File.Tree :=
  if tree.isFile path then some tree else (tree.write path []).toOption

def path (directory stem date : String) : String :=
  File.Path.join directory (stem ++ "." ++ date)

/-- Opens the log file of a day. If that fails, it is tried again in front of a directory made for
it. -/
def openDaily (date directory stem : String) (tree : File.Tree) : Bool × File.Tree :=
  match open? (path directory stem date) tree with
  | some tree => (true, tree)
  | none =>
    match File.Tree.disk.makeDirectories directory tree with
    | (.error _, tree) => (false, tree)
    | (.ok _, tree) =>
      match open? (path directory stem date) tree with
      | some tree => (true, tree)
      | none => (false, tree)

end LogFile

/-- What the arguments, the environment and the file tree of a run do not tell: the home directory
that the system has for the user, and whether a log file with a stem can be opened in a directory,
with the tree after that. -/
structure Machine extends FileBuild.System where
  home : Option String
  openLog : String → String → File.Tree → Bool × File.Tree

namespace Machine

/-- A machine on which only what the tree tells can fail, at a moment. -/
def usual (home : Option String) (timestamp : String) : Machine where
  home := home
  openLog := LogFile.openDaily (String.ofList (timestamp.toList.takeWhile (· ≠ 'T')))

/-- Starts logging, and tells whether it did. -/
def startLogging (machine : Machine) (logging : Settings.Logging) (tree : File.Tree) :
    Bool × File.Tree :=
  match logging.file with
  | none => (true, tree)
  | some path =>
    machine.openLog ((File.Path.parent? path).getD ".")
      ((File.Path.stem? path).getD LogFile.defaultStem) tree

end Machine

end ComponentWiring.CommandLine
