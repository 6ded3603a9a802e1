import Scriptlet.Cli.Command
import Scriptlet.Terminal.Surroundings
import Std.Time.DateTime.Timestamp
/-!
The program itself. It looks at the files that a command line can reach, lets the library decide
what to do about them, and writes what the library says.
-/
namespace Scriptlet.Terminal

/-- A bound on the steps of a program that no program reaches. -/
def bound : Nat := Nat.pow 2 64

def string (text : Text) : String := (String.fromUTF8? ⟨text.toArray⟩).getD ""

def now : IO Moment := do
  let nanoseconds := (← Std.Time.Timestamp.now).toNanosecondsSinceUnixEpoch.val.toNat
  return .ofSeconds (nanoseconds / 1000000000) (nanoseconds % 1000000000)

def pathOf (place : Place) : String := string (Path.slash :: Text.join [Path.slash] place)

def look (files : Files) (place : Place) : IO Files := do
  let path := (← IO.currentDir) / pathOf place
  if ← path.isDir then return files.addDirectory place
  try
    return files.addFile place (← IO.FS.readBinFile path).toList
  catch _ => return files

def lookInside (files : Files) (place : Place) : IO Files := do
  let mut files := files
  for entry in ← ((← IO.currentDir) / pathOf place).readDir do
    files ← look files (place ++ [utf8 entry.fileName])
  return files

def visit (files : Files) (path : Text) : IO Files := do
  let mut files := files
  let mut place := if Path.isAbsolute path then [] else files.here
  for component in Path.components path do
    if component = Path.above then place := place.dropLast
    else if component ≠ [] && component ≠ Path.same then
      place := place ++ [component]
      files ← look files place
  return files

def survey (files : Files) (paths : List Text) : IO Files := do
  let mut files := files
  for path in paths do
    if path ≠ [] then
      files ← visit files path
      if let .ok place := files.find path then
        if files.isDirectory place then files ← lookInside files place
  return files

def environment (names : List Text) : IO (List (Text × Text)) :=
  names.filterMapM fun name => do
    return (← IO.getEnv (string name)).map fun value => (name, utf8 value)

def surroundings (options : Cli.Options) : IO Host := do
  let setting := fun (name : String) => do return utf8 ((← IO.getEnv name).getD "")
  let here := (Path.components (utf8 (← IO.currentDir).toString)).filter (· ≠ [])
  let empty : Files := { here, directories := [], contents := [] }
  let named ← setting "ITL_CONFIG"
  let temporary ← setting "TMPDIR"
  let host :=
    hostAt (← now) (empty.addDirectory here)
      (fun name => if name = utf8 "ITL_CONFIG" then named else []) (← setting "HOME")
      (if temporary = [] then utf8 "/tmp" else temporary)
  let files ←
    survey host.files [options.configPath, named, Config.localPath, Config.userPath host]
  let host := { host with files }
  let content :=
    match Config.resolve host options.configPath with
    | .ok (some path) => (files.read path).toOption.getD []
    | _ => []
  let values ← environment (utf8 "ITL_CONFIG" :: Interpolation.names content)
  let host := { host with environment := fun name => (values.lookup name).getD [] }
  match Config.load host options.configPath with
  | .error _ => return host
  | .ok (config, _) =>
    let session : Repl.Options :=
      { version := Cli.version, historyFile := config.historyFile, temporary := host.temporary }
    let reached := options.arguments ++ [session.historyPath]
    let logged := if config.log.toFile then [config.log.output] else []
    let files ← survey files (reached ++ logged)
    return { host with files, notifications := notificationsIn files }

def put (stream : IO.FS.Stream) (text : Text) : IO Unit := do
  stream.write ⟨text.toArray⟩
  stream.flush

def emit (sink : LogSink) (effect : Effect) : IO Unit := do
  match effect with
  | .out text => put (← IO.getStdout) text
  | .err text => put (← IO.getStderr) text
  | .log record =>
    let line := sink.line (← now).stamp record
    match sink.target with
    | .out => put (← IO.getStdout) line
    | .err => put (← IO.getStderr) line
    | .file place => (← IO.FS.Handle.mk (pathOf place) .append).write ⟨line.toArray⟩

def tick (i : Interpreter) : IO Interpreter := do
  return { i with store := { i.store with machine := machineAt (← now) } }

partial def converse (sink : LogSink) (prompt : Text) (s : Repl.State) :
    IO (Int64 × List Text) := do
  emit sink (.out (s.prompt prompt))
  let line ← (← IO.getStdin).getLine
  if line.isEmpty then
    emit sink Repl.parting
    return (0, s.history)
  let s := { s with interpreter := ← tick s.interpreter }
  let step := s.take bound (readLine (utf8 line)).line
  step.effects.forM (emit sink)
  match step.ending with
  | some code => return (code, step.state.history)
  | none => converse sink prompt step.state

def session (setup : Cli.Setup) : IO Int64 := do
  let options := setup.sessionOptions
  let i := Interpreter.fresh setup.host.machine Cli.Setup.sessionName
  emit setup.sink (.out (Repl.banner options.version))
  let (code, history) ← converse setup.sink options.basePrompt { interpreter := i }
  let found := (setup.host.files.read options.historyPath).toOption
  if let .ok place := setup.host.files.writable options.historyPath then
    IO.FS.writeBinFile (pathOf place) ⟨(lineEditor.historyText found history).toArray⟩
  return code

/-- Looks at a script that is watched again and again. A content that differs is a change, and the
timer for it fires when the content has not changed for as long as is configured. -/
partial def follow (setup : Cli.Setup) (w : Cli.Watcher) (last : Option Text) (quiet : Nat) :
    IO Unit := do
  let pause : Nat := 20
  IO.sleep pause.toUInt32
  let files ← visit (setup.host.files) w.path
  let content := (files.read w.path).toOption
  let signals :=
    if content ≠ last && content.isSome then
      [Cli.Signal.change w.path { write := true, words := utf8 "WRITE" }]
    else if setup.config.debounce ≤ quiet * 1000000 then w.loop.pending.toList.map .alarm
    else []
  let mut w := { w with interpreter := ← tick w.interpreter }
  for signal in signals do
    let (effects, next) := w.take bound files signal
    effects.forM (emit setup.sink)
    w := next
  follow setup w content (if content = last then quiet + pause else 0)

def finish (status : Int64) (failure : Option Text) : IO UInt32 := do
  let code := (status.toInt % 256).toNat.toUInt32
  match failure with
  | none => return code
  | some failure =>
    put (← IO.getStderr) (utf8 "error: " ++ failure ++ utf8 "\n")
    return if code = 0 then 1 else code

def carryOut (setup : Cli.Setup) (task : Cli.Task) (input : Text) : IO UInt32 := do
  let (report, files) := setup.perform bound false input task
  report.effects.forM (emit setup.sink)
  for (place, content) in files.contents do
    if setup.host.files.content? place ≠ some content then
      IO.FS.writeBinFile (pathOf place) ⟨content.toArray⟩
  finish report.status report.failure

def run (arguments : List Text) : IO UInt32 := do
  let host ← surroundings ((Cli.Options.read {} arguments).toOption.getD {})
  match Cli.begin host arguments with
  | .answered report =>
    report.effects.forM (emit { target := .err, threshold := .error, asJson := false })
    finish report.status report.failure
  | .prepared setup options =>
    if let .file place := setup.sink.target then
      (← IO.FS.Handle.mk (pathOf place) .append).flush
    match options.task with
    | .error fault => finish Cli.usageStatus (some fault)
    | .ok .session =>
      let input ← IO.getStdin
      if ← input.isTty then finish (← session setup) none
      else carryOut setup .session (← IO.FS.Stream.readBinToEnd input).toList
    | .ok (.watch path) =>
      match Cli.Watcher.start bound setup.host.notifications setup.host.machine setup.host.files path with
      | .error fault => finish Cli.failureStatus (some fault)
      | .ok (effects, w) =>
        effects.forM (emit setup.sink)
        follow setup w (setup.host.files.read w.path).toOption 0
        finish 0 none
    | .ok task => carryOut setup task []

end Scriptlet.Terminal

def main (arguments : List String) : IO UInt32 :=
  Scriptlet.Terminal.run (arguments.map Scriptlet.utf8)
