import Dualbank.Bench.Shell.Process

namespace Dualbank.Bench.Shell

open Process (text)

def openFailure (creating : Bool) (n : Int) : String :=
  if n = Errno.noEntry || n = Errno.notDirectory then
    if creating then "Directory nonexistent" else "No such file"
  else Errno.text n

def reportUnopened (creating : Bool) (path : String) (e : OsError) (p : Process) : Process :=
  let verb := if creating then "create" else "open"
  let why := match e with
    | .number n => openFailure creating n
    | e => e.message
  (p.report s!"cannot {verb} {path}: {why}").withStatus 2

def openStream (stream : Nat) (appending : Bool) (path : String) (p : Process) :
    Except Process Process :=
  if stream = 0 then
    match p.files.read path with
    | .ok bs => .ok { p with input := bs }
    | .error e => .error (reportUnopened false path e p)
  else
    match if appending then p.files.touch path else p.files.write path [] with
    | .error e => .error (reportUnopened true path e p)
    | .ok files =>
      let sink := match files.openFile path with
        | .ok (some n) => Sink.file n
        | _ => .nowhere
      .ok (if stream = 1 then { p with files, out := sink } else { p with files, err := sink })

def duplicateStream (stream : Nat) (source : String) (p : Process) : Process :=
  let sink := match source with
    | "1" => p.out
    | "2" => p.err
    | _ => .nowhere
  if stream = 1 then { p with out := sink } else if stream = 2 then { p with err := sink } else p

end Dualbank.Bench.Shell
