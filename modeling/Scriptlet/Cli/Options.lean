import Scriptlet.Text.Quoted
/-!
What a command line asks for. Flags stand before the arguments, each behind one or two dashes, and
the first text that is no flag starts the arguments. A flag with a value takes it from behind an
equals sign or from the next text; a switch is on unless an equals sign says otherwise.
-/
namespace Scriptlet.Cli

inductive Setting where
  | config
  | code
  deriving DecidableEq, Repr

inductive Switch where
  | check
  | watch
  | version
  | help
  deriving DecidableEq, Repr

inductive Flag where
  | setting (setting : Setting)
  | switch (switch : Switch)
  deriving DecidableEq, Repr

def flags : List (Text × Flag) :=
  [(utf8 "config", .setting .config),
    (utf8 "e", .setting .code), (utf8 "eval", .setting .code),
    (utf8 "check", .switch .check),
    (utf8 "watch", .switch .watch),
    (utf8 "version", .switch .version), (utf8 "V", .switch .version),
    (utf8 "help", .switch .help), (utf8 "h", .switch .help)]

inductive UsageFault where
  | malformed (text : Text)
  | unknown (name : Text)
  | valueMissing (name : Text)
  | notBoolean (name value : Text)
  deriving DecidableEq, Repr

def UsageFault.message : UsageFault → Text
  | .malformed text => utf8 "bad flag syntax: " ++ text
  | .unknown name => utf8 "flag provided but not defined: -" ++ name
  | .valueMissing name => utf8 "flag needs an argument: -" ++ name
  | .notBoolean name value =>
    utf8 "invalid boolean value " ++ Text.quoted value ++ utf8 " for -" ++ name
      ++ utf8 ": parse error"

inductive Word where
  | plain
  | separator
  | malformed
  | flag (name : Text) (value : Option Text)
  deriving DecidableEq, Repr

namespace Word

def dash : UInt8 := 45

def equals : UInt8 := 61

def behindDashes (body : Text) : Word :=
  if body.head? = some dash || body.head? = some equals || body = [] then .malformed
  else
    let (name, value) := Text.cut equals body
    .flag name (if body.contains equals then some value else none)

def ofText (text : Text) : Word :=
  if text = [dash, dash] then .separator
  else if text = [dash] || text.head? ≠ some dash then .plain
  else if text.tail.head? = some dash then behindDashes (text.drop 2)
  else behindDashes text.tail

end Word

def switchValues : List (Text × Bool) :=
  [(utf8 "1", true), (utf8 "t", true), (utf8 "T", true), (utf8 "true", true),
    (utf8 "TRUE", true), (utf8 "True", true),
    (utf8 "0", false), (utf8 "f", false), (utf8 "F", false), (utf8 "false", false),
    (utf8 "FALSE", false), (utf8 "False", false)]

structure Options where
  configPath : Text := []
  code : Text := []
  check : Bool := false
  watch : Bool := false
  version : Bool := false
  help : Bool := false
  arguments : List Text := []
  deriving DecidableEq, Repr

namespace Options

def set (options : Options) (value : Text) : Setting → Options
  | .config => { options with configPath := value }
  | .code => { options with code := value }

def turn (options : Options) (on : Bool) : Switch → Options
  | .check => { options with check := on }
  | .watch => { options with watch := on }
  | .version => { options with version := on }
  | .help => { options with help := on }

def read (options : Options) : List Text → Except UsageFault Options
  | [] => .ok options
  | text :: rest =>
    match Word.ofText text with
    | .plain => .ok { options with arguments := text :: rest }
    | .separator => .ok { options with arguments := rest }
    | .malformed => .error (.malformed text)
    | .flag name value =>
      match flags.lookup name, value, rest with
      | none, _, _ => .error (.unknown name)
      | some (.switch switch), none, rest => (options.turn true switch).read rest
      | some (.switch switch), some text, rest =>
        match switchValues.lookup text with
        | none => .error (.notBoolean name text)
        | some on => (options.turn on switch).read rest
      | some (.setting setting), some value, rest => (options.set value setting).read rest
      | some (.setting setting), none, value :: rest => (options.set value setting).read rest
      | some (.setting _), none, [] => .error (.valueMissing name)

end Options

end Scriptlet.Cli
