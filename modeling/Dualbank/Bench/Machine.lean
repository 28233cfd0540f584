import Dualbank.Bench.Shell.Run

namespace Dualbank.Bench

structure Machine where
  files : FileTree
  environment : Environment := []
  out : Bytes := []
  err : Bytes := []
  console? : Option (Option Nat) := none
  copiesLog : Bool := false

namespace Machine

def directoryPaths : List String :=
  ["/tmp", "/dev", "/dev/fd", "/dev/mqueue", "/dev/pts", "/dev/shm", "/etc", "/home", "/opt",
    "/proc", "/root", "/run", "/sys", "/usr", "/usr/bin", "/usr/lib", "/usr/local",
    "/usr/local/bin", "/usr/local/sbin", "/usr/sbin", "/var"]

def deviceNames : List String := ["null", "zero", "full", "random", "urandom", "ptmx"]

def baseTree : FileTree where
  nodes := directoryPaths.map (fun d => (FileTree.names d, .directory)) ++
    deviceNames.map (fun d => (["dev", d], .device)) ++
    [(["dev", "tty"], .terminal), (["bin"], .link "usr/bin"), (["sbin"], .link "usr/sbin")] ++
    Shell.programNames.map fun n => (["usr", "bin", n], .program n)

def empty : Machine := { files := baseTree }

def printBytes (m : Machine) (stream : Stream) (bs : Bytes) : Machine :=
  match stream with
  | .stdout => { m with out := m.out ++ bs }
  | .stderr => { m with err := m.err ++ bs }
  | .console =>
    match m.console? with
    | some (some number) => { m with files := m.files.appendTo number bs }
    | _ => m

def stamp : String := "1970-01-01T00:00:00.000000Z"

def log (m : Machine) (severity : Severity) (message : String) : Machine :=
  let copy (origin : String) : Machine :=
    if m.copiesLog then
      m.printBytes .console (Text.encode (stamp ++ " ERROR " ++ origin ++ ": " ++ message ++ "\n"))
    else m
  match severity with
  | .warning => m
  | .error => copy "update_ctrl::update"
  | .fatal => copy "update_ctrl"

def openConsole (m : Machine) (path : String) : Except OsError Machine := do
  return { m with console? := some (← m.files.openFile path) }

def update (m : Machine) (r : Except OsError FileTree) : Except OsError Unit × Machine :=
  match r with
  | .ok files => (.ok (), { m with files })
  | .error e => (.error e, m)

def run (m : Machine) (program : String) (args : List String) :
    Except OsError (Status × Bytes × Bytes) × Machine :=
  match Shell.launch m.files m.environment program args with
  | .error e => (.error e, m)
  | .ok p => (.ok (p.result, p.written 0, p.written 1), { m with files := p.files })

def answer : (q : SysCall) → StateM Machine q.Answer
  | .run program args => fun m =>
    let (r, m) := m.run program args
    (r.map fun (status, out, err) => ⟨status, Text.decodeLossy out, Text.decodeLossy err⟩, m)
  | .runAttached program args => fun m =>
    match m.run program args with
    | (.error e, m) => (.error e, m)
    | (.ok (status, out, err), m) => (.ok status, (m.printBytes .stdout out).printBytes .stderr err)
  | .readText path => fun m => (m.files.readText path, m)
  | .isPresent path => fun m => (m.files.isPresent path, m)
  | .createNew path => fun m => m.update (m.files.createNew path)
  | .remove path => fun m => m.update (m.files.remove path)
  | .inspect path => fun m => (m.files.inspect path, m)
  | .openConsole path => fun m =>
    match m.openConsole path with
    | .ok m => (.ok (), m)
    | .error e => (.error e, m)
  | .copyLog => fun m => ((), { m with copiesLog := true })
  | .workingDirectory => pure (.ok "/")
  | .pause _ => pure ()
  | .print stream line => fun m => ((), m.printBytes stream (Text.encode (line ++ "\n")))
  | .log severity message => fun m => ((), m.log severity message)

end Machine

end Dualbank.Bench
