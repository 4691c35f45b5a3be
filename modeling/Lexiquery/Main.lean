import Lexiquery.Shell.Reply

/-! The command line: the shell on standard input and output. Its argument is the path of a
configuration file. -/

namespace Lexiquery

/-- What a failure to read a path tells about it. A directory opens, and the failure to read it
names no file. -/
def faultOf : IO.Error → Except PathFault File
  | .inappropriateType none .. => .ok .directory
  | .inappropriateType .. => .error .notDirectory
  | .invalidArgument .. => .error .tooLong
  | .permissionDenied .. => .error .denied
  | _ => .error .missing

def look (path : String) : IO (Except PathFault File) := do
  try
    return .ok (.ofBytes (← IO.FS.readBinFile path))
  catch e =>
    return faultOf e

def lookAt (paths : List String) : IO Files := do
  let found ← paths.mapM fun path => return (path, ← look path)
  return fun path => (found.lookup path).getD (.error .missing)

def Reply.write (r : Reply) : IO Unit := do
  match r with
  | .report json => IO.println (json.pretty 0)
  | _ => r.lines.forM (if r.isComplaint then IO.eprintln else IO.println)

partial def converse (shell : Shell) : IO Unit := do
  let input ← IO.getStdin
  if ← input.isTty then
    IO.print "verbly> "
    (← IO.getStdout).flush
  let line ← input.getLine
  if line.isEmpty then return
  let (reply, shell) := shell.respond line
  reply.write
  match reply with
  | .goodbye => return
  | _ => converse shell

def run (argument : Option String) : IO (Except Error Shell) := do
  match Shell.configure (← lookAt [argument.getD Shell.defaultConfig]) argument with
  | .error e => return .error e
  | .ok config =>
    let opened := Shell.ofConfig (← lookAt (Files.storeProbes config.path)) config
    if opened.isOk then
      IO.println (Shell.banner config)
      IO.println Shell.instructions
      IO.println ""
    return opened

end Lexiquery

open Lexiquery in
def main (args : List String) : IO UInt32 := do
  match ← run args.head? with
  | .ok shell =>
    converse shell
    return 0
  | .error e =>
    IO.eprintln e.display
    return 1
