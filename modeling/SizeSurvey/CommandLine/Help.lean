import SizeSurvey.CommandLine.Request
/-!
# Help

The texts that explain the command line.
-/
namespace SizeSurvey.CommandLine

def programName : String := "wheelscan"

def versionText : String := programName ++ " 0.1.0\n"

def ofLines (lines : List String) : String :=
  String.join (lines.map (· ++ "\n"))

def commandLines : List String :=
  ["Commands:",
    "  analyze  Analyze the shared libraries of an extracted package",
    "  gate     Compare current size metrics against a baseline",
    "  help     Print this message or the help of the given subcommand(s)"]

def helpText : Topic → String
  | .program => ofLines (
      ["Size and symbol analysis of shared libraries in a Python wheel",
        "",
        "Usage: wheelscan [OPTIONS] <COMMAND>",
        ""] ++ commandLines ++
      ["",
        "Options:",
        "      --json-logs  Emit logs as JSON lines",
        "  -h, --help       Print help",
        "  -V, --version    Print version"])
  | .survey => ofLines
      ["Analyze the shared libraries of an extracted package",
        "",
        "Usage: wheelscan analyze [OPTIONS] --root <ROOT> --output <OUTPUT>",
        "",
        "Options:",
        "      --json-logs          Emit logs as JSON lines",
        "      --root <ROOT>        Root of the extracted package",
        "      --output <OUTPUT>    Directory receiving the JSON reports",
        "      --archive <ARCHIVE>  Package archive the tree was extracted from",
        "      --config <CONFIG>    JSON configuration file",
        "  -h, --help               Print help"]
  | .gate => ofLines
      ["Compare current size metrics against a baseline",
        "",
        "Usage: wheelscan gate [OPTIONS]",
        "",
        "Options:",
        "      --analysis-dir <ANALYSIS_DIR>  Directory holding the current analysis "
          ++ "[default: build/wheel_analysis/analysis]",
        "      --json-logs                    Emit logs as JSON lines",
        "      --baseline <BASELINE>          Baseline JSON file to compare against",
        "      --max-growth <MAX_GROWTH>      Maximum allowed growth: N% or bytes with optional "
          ++ "K/M/G suffix [default: gate.max_growth from --config, else 5%]",
        "      --config <CONFIG>              JSON configuration file; its `gate` section sets "
          ++ "the threshold and report floor",
        "      --output <OUTPUT>              Write the comparison to a JSON file",
        "      --save-baseline                Save current sizes as the new baseline",
        "  -h, --help                         Print help"]
  | .help => ofLines
      ["Print this message or the help of the given subcommand(s)",
        "",
        "Usage: wheelscan help [COMMAND]...",
        "",
        "Arguments:",
        "  [COMMAND]...  Print help for the subcommand(s)"]

end SizeSurvey.CommandLine
