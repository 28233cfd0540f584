import Dualbank.Bench.Shell.Arithmetic
import Dualbank.Bench.Shell.Fields
import Dualbank.Bench.Shell.Lookup
import Dualbank.Bench.Shell.Pattern
import Dualbank.Bench.Shell.Programs
import Dualbank.Bench.Shell.Reader
import Dualbank.Bench.Shell.Streams

namespace Dualbank.Bench.Shell

open Process (text)

def statusNumber : Status → Nat
  | .exited n => n
  | .killed n => 128 + n

def assignments : List Bytes → Environment → Environment × List Bytes
  | [], e => (e, [])
  | a :: as, e =>
    match a.dropWhile (· ≠ 61) with
    | _ :: value => assignments as (e.set (text (a.takeWhile (· ≠ 61))) value)
    | [] => (e, a :: as)

def setOptions : List Bytes → Process → Process
  | [], p => p.withStatus 0
  | a :: as, p =>
    if a = [45, 45] then { p with args := as, status := 0 }
    else if a.length < 2 then { p with args := a :: as, status := 0 }
    else if a.head? == some 45 then
      setOptions as { p with endsOnFailure := p.endsOnFailure || a.contains 101 }
    else if a.head? == some 43 then
      setOptions as { p with endsOnFailure := p.endsOnFailure && !a.contains 101 }
    else { p with args := a :: as, status := 0 }

/-- Goes on after a program, and tells of one that was killed. -/
def afterProgram (p q : Process) : Process :=
  let p := { p.after q with status := statusNumber q.result }
  match q.result with
  | .exited _ => p
  | .killed n =>
    match signalTexts.lookup n with
    | some t => p.complain (Text.encode t)
    | none => p

def checkStatus (p : Process) : Process :=
  if p.endsOnFailure && !p.guarded && p.status ≠ 0 then p.finish (.exited (p.status % 256)) else p

def asCondition (f : Process → Process) (p : Process) : Process :=
  { f { p with guarded := true } with guarded := p.guarded }

def arithmeticFault (why expression : String) (p : Process) : Process :=
  (p.report s!"arithmetic expression: {why}: \"{expression}\"").finish (.exited 2)

mutual

def expandPieces : Nat → Word → Fields → Process → Fields × Process
  | 0, _, f, p => (f, p)
  | _ + 1, [], f, p => (f, p)
  | n + 1, piece :: w, f, p =>
    let add (quoted : Bool) (v : Bytes) (p : Process) : Fields × Process :=
      expandPieces n w (if quoted then f.add v else f.addSplit v) p
    match piece with
    | .plain s => expandPieces n w (f.add (Text.encode s)) p
    | .quoted s => expandPieces n w (f.add (Text.encode s)) p
    | .param "@" true => expandPieces n w (f.addEach p.args) p
    | .param name quoted => add quoted (p.parameter name) p
    | .output source quoted =>
      let (v, p) := substitute n source p
      add quoted v p
    | .arithmetic expression quoted =>
      let (source, p) := expandWord n (readInner true expression) p
      let valueOf (name : String) : Int := (number? (p.parameter name)).getD 0
      match Arithmetic.compute valueOf (text source) with
      | .ok a => add quoted (Text.encode (toString a)) p
      | .error .divisionByZero => (f, arithmeticFault "division by zero" (text source) p)
      | .error .malformed => (f, arithmeticFault "expecting primary" (text source) p)
    | .altered name op word quoted =>
      let value := p.parameter? name
      let other := readInner quoted word
      let present := if op.startsWith ":" then value.any (!·.isEmpty) else value.isSome
      let v := value.getD []
      match op with
      | "length" => add quoted (Text.encode (toString v.length)) p
      | ":-" | "-" => if present then add quoted v p else expandPieces n (other ++ w) f p
      | ":+" | "+" => if present then expandPieces n (other ++ w) f p else add quoted [] p
      | ":=" | "=" =>
        if present then add quoted v p
        else
          let (v, p) := expandWord n other p
          add quoted v (p.setVariable name v)
      | ":?" | "?" =>
        if present then add quoted v p
        else
          let (why, p) := expandWord n other p
          let why := if word.isEmpty then "parameter not set" else text why
          (f, (p.report s!"{name}: {why}").finish (.exited 2))
      | _ =>
        let (source, p) := patternSource n (readInner false word) p
        let drop := if op.startsWith "#" then Pattern.dropStart else Pattern.dropEnd
        add quoted (drop (1 < op.length) (Pattern.ofSource source) v) p

def substitute : Nat → String → Process → Bytes × Process
  | 0, _, p => ([], p)
  | n + 1, source, p =>
    let k := p.buffers.length
    let inner := runSource n source { p with out := .buffer k, buffers := p.buffers ++ [[]] }
    let bs := (inner.written k).filter (· ≠ 0)
    let bs := (bs.reverse.dropWhile (· = 10)).reverse
    (bs, { p with
      files := inner.files, buffers := inner.buffers.take k
      substituted := statusNumber inner.result })

def expandWords : Nat → List Word → Process → List Bytes × Process
  | 0, _, p => ([], p)
  | _ + 1, [], p => ([], p)
  | n + 1, w :: ws, p =>
    let (fields, p) :=
      if isAllArguments w then (p.args, p)
      else
        let (f, p) := expandPieces n w {} p
        (f.toList, p)
    let (rest, p) := expandWords n ws p
    (fields ++ rest, p)

def expandWord : Nat → Word → Process → Bytes × Process
  | 0, _, p => ([], p)
  | n + 1, w, p =>
    let quoted := w.map fun
      | .param name _ => Piece.param (if name = "@" then "*" else name) true
      | .output source _ => .output source true
      | .altered name op word _ => .altered name op word true
      | .arithmetic expression _ => .arithmetic expression true
      | piece => piece
    let (f, p) := expandPieces n quoted {} p
    (f.open?.getD [], p)

def redirect : Nat → List Redirection → Process → Except Process Process
  | 0, _, p => .error p
  | _ + 1, [], p => .ok p
  | n + 1, .file stream appending target :: rs, p => do
    let (path, p) := expandWord n target p
    let p ← openStream stream appending (text path) p
    redirect n rs p
  | n + 1, .duplicate stream source :: rs, p =>
    let (source, p) := expandWord n source p
    redirect n rs (duplicateStream stream (text source) p)

def withStreams : Nat → List Redirection → Script ⊕ List Bytes → Process → Process
  | 0, _, _, p => p.finish (.killed 9)
  | n + 1, rs, body, p =>
    let restored (q : Process) : Process :=
      { q with
        out := p.out, err := p.err, input := if rs.any (·.isInput) then p.input else q.input }
    match redirect n rs p, body with
    | .error q, .inr (command :: _) =>
      restored (if isSpecial (text command) then q.finish (.exited 2) else q)
    | .error q, _ => restored q
    | .ok q, .inl script => restored (eval n script q)
    | .ok q, .inr [command] =>
      if command = Text.encode "exec" then q.withStatus 0 else restored (call n [command] q)
    | .ok q, .inr words => restored (call n words q)

def eval : Nat → Script → Process → Process
  | 0, _, p => p.finish (.killed 9)
  | n + 1, script, p =>
    if p.ended.isSome then p
    else
      match script with
      | .nothing => p
      | .both a b => eval n b (eval n a p)
      | .ifOk a b =>
        let p := asCondition (eval n a) p
        if p.status = 0 then eval n b p else p
      | .ifFailed a b =>
        let p := asCondition (eval n a) p
        if p.status = 0 then p else eval n b p
      | .negated a =>
        let p := asCondition (eval n a) p
        p.withStatus (if p.status = 0 then 1 else 0)
      | .piped a b =>
        let k := p.buffers.length
        let left := eval n a { p with out := .buffer k, buffers := p.buffers ++ [[]] }
        let right := eval n b { p with
          files := left.files, buffers := left.buffers.take k, input := left.written k }
        checkStatus { p.after right with status := statusNumber right.result }
      | .choice test yes no =>
        let p := asCondition (eval n test) p
        if p.status = 0 then eval n yes p
        else
          match no with
          | .nothing => p.withStatus 0
          | _ => eval n no p
      | .loop whileOk test body =>
        let p := asCondition (eval n test) p
        if p.ended.isSome then p
        else if (p.status = 0) = whileOk then eval n script (eval n body p)
        else p.withStatus 0
      | .each name words body =>
        let (items, p) := match words with
          | some ws => expandWords n ws p
          | none => (p.args, p)
        evalEach n name items body (p.withStatus 0)
      | .cases w branches =>
        let (bs, p) := expandWord n w p
        select n bs branches p
      | .grouped line a rs => withStreams n rs (.inl a) { p with line }
      | .nested line a rs =>
        let q := withStreams n rs (.inl a) { p with line }
        checkStatus { p.after q with status := statusNumber q.result }
      | .simple line words rs =>
        let assigned := words.takeWhile fun w => (assignment? w).isSome
        let p := { p with line, substituted := 0 }
        let (fields, p) := expandWords n (words.drop assigned.length) p
        if p.ended.isSome then p
        else
          match fields with
          | [] =>
            let p := assign n false assigned p
            let p := p.withStatus p.substituted
            checkStatus (withStreams n rs (.inl .nothing) p)
          | command :: _ =>
            let q := withStreams n rs (.inr fields) (assign n true assigned p)
            checkStatus (if assigned.isEmpty || isSpecial (text command) then q
              else { q with bindings := p.bindings, exported := p.exported })

def evalEach : Nat → String → List Bytes → Script → Process → Process
  | 0, _, _, _, p => p.finish (.killed 9)
  | _ + 1, _, [], _, p => p
  | n + 1, name, item :: items, body, p =>
    evalEach n name items body (eval n body (p.setVariable name item))

/-- Sets variables, for programs started from here too if asked. -/
def assign : Nat → Bool → List Word → Process → Process
  | 0, _, _, p => p
  | _ + 1, _, [], p => p
  | n + 1, exporting, w :: ws, p =>
    match assignment? w with
    | none => p
    | some (name, value) =>
      let (bs, p) := expandWord n value p
      let p := p.setVariable name bs
      assign n exporting ws (if exporting then p.exportVariable name else p)

def select : Nat → Bytes → List (List Word × Script) → Process → Process
  | 0, _, _, p => p.finish (.killed 9)
  | _ + 1, _, [], p => p.withStatus 0
  | n + 1, bs, (ps, body) :: branches, p =>
    let (found, p) := matchAny n bs ps p
    if found then eval n body (p.withStatus 0) else select n bs branches p

def matchAny : Nat → Bytes → List Word → Process → Bool × Process
  | 0, _, _, p => (false, p)
  | _ + 1, _, [], p => (false, p)
  | n + 1, bs, w :: ws, p =>
    let (source, p) := patternSource n w p
    if Pattern.fits (Pattern.ofSource source) bs then (true, p) else matchAny n bs ws p

def patternSource : Nat → Word → Process → PatternSource × Process
  | 0, _, p => ([], p)
  | _ + 1, [], p => ([], p)
  | n + 1, piece :: w, p =>
    let literal := match piece with
      | .plain _ => false
      | .quoted _ => true
      | .param _ quoted | .output _ quoted | .altered _ _ _ quoted | .arithmetic _ quoted =>
        quoted
    let (bs, p) := expandWord n [piece] p
    let (rest, p) := patternSource n w p
    (bs.map (·, literal) ++ rest, p)

def call : Nat → List Bytes → Process → Process
  | 0, _, p => p.finish (.killed 9)
  | _ + 1, [], p => p
  | n + 1, command :: args, p =>
    let name := text command
    match name, builtin? name with
    | _, some f => f args p
    | "set", _ => setOptions args p
    | "eval", _ => runSource n (text (Process.spaced args)) p
    | ".", _ =>
      match args with
      | [] => p.withStatus 0
      | file :: _ =>
        match p.files.read (text file) with
        | .ok bs => runSource n (text bs) p
        | .error e =>
          let why := match e with
            | .number n => openFailure false n
            | e => e.message
          (p.report s!".: cannot open {text file}: {why}").finish (.exited 2)
    | "exec", _ =>
      match args with
      | [] => p.withStatus 0
      | command :: args =>
        let name := text command
        match locate p name >>= (startAt p · command args) with
        | .ok s =>
          let q := runProgram n s p
          (p.after q).finish q.result
        | .error e =>
          (p.report s!"exec: {name}: {notStarted e}").finish (.exited (unstartedStatus e))
    | _, _ =>
      match locate p name with
      | .error e => (p.report s!"{name}: {notStarted e}").withStatus 127
      | .ok path =>
        match startAt p path command args with
        | .ok s => afterProgram p (runProgram n s p)
        | .error e => (p.report s!"{name}: {notStarted e}").withStatus (unstartedStatus e)

def runProgram : Nat → Start → Process → Process
  | 0, _, p => p.finish (.killed 9)
  | n + 1, s, p =>
    let q := p.child s.name s.args
    if isShell s.program then runShell n s.args q
    else if s.program = "env" then
      let (bindings, command) := assignments s.args q.bindings
      let q := { q with bindings, exported := bindings.map (·.1) }
      match command with
      | [] => printenv [] q
      | command :: args =>
        match Executable.search q.files q.bindings.directories (text command) args with
        | .ok s => runProgram n s q
        | .error e =>
          (complainAbout "env" "" (Quoted.always command) e q).withStatus
            (if e.isNotFound then 127 else 126)
    else
      match program? s.program with
      | some f => f s.args q
      | none => q

/-- Runs a shell: its script is an argument, a file or its input. -/
def runShell : Nat → List Bytes → Process → Process
  | 0, _, p => p.finish (.killed 9)
  | n + 1, args, p =>
    let isOption (a : Bytes) : Bool := a.head? == some 45 && 1 < a.length && a ≠ [45, 45]
    let options := args.takeWhile isOption
    let rest := args.drop options.length
    let rest := if rest.head?.any fun a => a = [45] || a = [45, 45] then rest.drop 1 else rest
    let p := { p with
      bindings := p.bindings.filter fun v => isVariableName v.1
      endsOnFailure := options.any (·.contains 101) }
    match options.any (·.contains 99), rest with
    | true, [] => (p.report "-c requires an argument").finish (.exited 2)
    | true, source :: rest =>
      runSource n (text source) { p with name := rest.headD p.name, args := rest.drop 1 }
    | false, [] => runSource n (text p.input) { p with input := [], args := [] }
    | false, file :: rest =>
      match p.files.read (text file) with
      | .ok bs => runSource n (text bs) { p with name := file, args := rest }
      | .error e => (reportUnopened false (text file) e p).finish (.exited 2)

def runSource : Nat → String → Process → Process
  | 0, _, p => p.finish (.killed 9)
  | n + 1, source, p =>
    match read source with
    | some script => eval n script p
    | none => ({ p with line := 1 }.report "Syntax error").finish (.exited 2)

end

def mostSteps : Nat := 100000

def launch (files : FileTree) (environment : Environment) (program : String) (args : List String) :
    Except OsError Process :=
  if (program :: args).any fun a => a.toList.contains '\x00' then
    .error (.other "nul byte found in provided data")
  else do
    let s ← Executable.search files environment.directories program (args.map Text.encode)
    return runProgram mostSteps s
      { files, bindings := environment, exported := environment.map (·.1) }

end Dualbank.Bench.Shell
