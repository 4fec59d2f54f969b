import TeachLang.Command.Options
import TeachLang.Log.Event

/-! # Notices

The texts that are shown instead of compiling anything.
-/

namespace TeachLang

def commandName : String := "chimerac"

def commandVersion : String := "0.4.0"

def usageLine : String := "Usage: " ++ commandName ++ " [OPTIONS] <FILES>...\n"

def helpText : String :=
  "Scan, parse and type check Chimera programs\n\n" ++ usageLine
    ++ "\nArguments:\n"
    ++ "  <FILES>...  Source files, compiled one after the other\n"
    ++ "\nOptions:\n"
    ++ "      --print-tokens           Print every token the scanner produces\n"
    ++ "      --print-ast              Print the typed syntax tree of each file that checks\n"
    ++ "      --no-tables              Do not print the symbol and procedure tables\n"
    ++ "  -v, --verbose...             Use verbose output\n"
    ++ "  -s, --silent                 Silence all output\n"
    ++ "      --log-level <LOG_LEVEL>  Set the log level, overriding `RUST_LOG` and `--verbose`\n"
    ++ "  -h, --help                   Print help\n"
    ++ "  -V, --version                Print version\n"

def UsageError.message : UsageError → String
  | unknownArgument argument => "unexpected argument '" ++ argument ++ "' found"
  | unexpectedValue argument value =>
    "unexpected value '" ++ value ++ "' for '--" ++ argument ++ "' found; no more were expected"
  | missingValue argument => "a value is required for '" ++ argument ++ "' but none was supplied"
  | badValue argument value => "invalid value '" ++ value ++ "' for '--" ++ argument ++ "'"
  | repeated argument => "the argument '--" ++ argument ++ "' cannot be used multiple times"
  | missingFiles => "the following required arguments were not provided:\n  <FILES>..."

namespace Notice

def text : Notice → String
  | help => helpText
  | version => commandName ++ " " ++ commandVersion ++ "\n"
  | usage error =>
    "error: " ++ error.message ++ "\n\n" ++ usageLine ++ "\nFor more information, try '--help'.\n"

def channel : Notice → Channel
  | usage _ => .err
  | _ => .out

def exitCode : Notice → Nat
  | usage _ => 2
  | _ => 0

end Notice
end TeachLang
