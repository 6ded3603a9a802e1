import Scriptlet.Text.Basic
/-!
What the command says about itself.
-/
namespace Scriptlet.Cli

def version : Text := utf8 "0.1.0-dev"

def versionLine : Text := utf8 "itl version " ++ version

def usageLines : List String :=
  ["",
    "Usage:",
    "  itl [options] [file | dir]",
    "  itl -e \"code\"",
    "  itl --check <file>...",
    "  itl --watch <file>",
    "",
    "Options:",
    "  -e, --eval CODE  Evaluate code and print the result",
    "  --check          Check syntax without executing (can specify multiple files)",
    "  --watch          Re-run the script every time it is saved",
    "  --config PATH    Path to config file (default: auto-detect)",
    "  -V, --version    Show version",
    "  -h, --help       Show this help",
    "",
    "Config Resolution:",
    "  1. --config flag",
    "  2. ITL_CONFIG environment variable",
    "  3. ./itl.yaml",
    "  4. ~/.config/itl/itl.yaml",
    "",
    "Examples:",
    "  itl                         Start interactive REPL",
    "  itl hello.itl               Run a script",
    "  itl scripts/                Run every .itl file in a directory, in name order",
    "  itl -e \"1 + 2 * 3;\"         Evaluate inline code (outputs: 7)",
    "  itl --check *.itl           Check several files",
    "  itl --watch hello.itl       Re-run on save",
    ""]

def usage : Text :=
  utf8 "itl - ITLang interpreter version " ++ version ++ utf8 "\n"
    ++ usageLines.flatMap fun line => utf8 line ++ utf8 "\n"

end Scriptlet.Cli
