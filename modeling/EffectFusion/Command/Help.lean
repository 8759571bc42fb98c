/-!
# Help texts of the command line
-/

namespace EffectFusion.Command

def versionText : String := "fxfuse 0.1.0\n"

def overallHelp : String :=
  "Usage: fxfuse [OPTIONS] <COMMAND>\n\n"
    ++ "Commands:\n"
    ++ "  fuse     Fuse an effect source file with the modules of a level\n"
    ++ "  modules  List the modules active at a level, in fusion order\n"
    ++ "  levels   List the configured level policies\n"
    ++ "  help     Print this message or the help of the given subcommand(s)\n\n"
    ++ "Options:\n"
    ++ "  -v, --verbose  Log pipeline stages to stderr (overridden by RUST_LOG)\n"
    ++ "  -h, --help     Print help\n"
    ++ "  -V, --version  Print version\n"

def fuseHelp : String :=
  "Fuse an effect source file with the modules of a level\n\n"
    ++ "Usage: fxfuse fuse [OPTIONS] --in <IN_PATH> --level <LEVEL>\n\n"
    ++ "Options:\n"
    ++ "      --in <IN_PATH>\n          Input effect source\n"
    ++ "  -v, --verbose\n          Log pipeline stages to stderr (overridden by RUST_LOG)\n"
    ++ "      --level <LEVEL>\n          Enhancement level\n"
    ++ "      --creativity-boost <CREATIVITY_BOOST>\n          [default: 0]\n"
    ++ "      --performance-priority <PERFORMANCE_PRIORITY>\n          [default: 0]\n"
    ++ "      --innovation-level <INNOVATION_LEVEL>\n          [default: 0]\n"
    ++ "      --config <CONFIG>\n          Module catalog and level policy JSON (defaults to the "
    ++ "built-in catalog)\n"
    ++ "      --out <OUT>\n          Output path for the fused code (stdout when omitted)\n"
    ++ "      --report <REPORT>\n          Write the transformation report as JSON\n"
    ++ "      --text-report\n          Print the human-readable report to stderr\n"
    ++ "  -h, --help\n          Print help\n"

def modulesHelp : String :=
  "List the modules active at a level, in fusion order\n\n"
    ++ "Usage: fxfuse modules [OPTIONS] --level <LEVEL>\n\n"
    ++ "Options:\n"
    ++ "      --level <LEVEL>    \n"
    ++ "  -v, --verbose          Log pipeline stages to stderr (overridden by RUST_LOG)\n"
    ++ "      --config <CONFIG>  Module catalog and level policy JSON (defaults to the built-in "
    ++ "catalog)\n"
    ++ "  -h, --help             Print help\n"

def levelsHelp : String :=
  "List the configured level policies\n\n"
    ++ "Usage: fxfuse levels [OPTIONS]\n\n"
    ++ "Options:\n"
    ++ "      --config <CONFIG>  Module catalog and level policy JSON (defaults to the built-in "
    ++ "catalog)\n"
    ++ "  -v, --verbose          Log pipeline stages to stderr (overridden by RUST_LOG)\n"
    ++ "  -h, --help             Print help\n"

def helpHelp : String :=
  "Print this message or the help of the given subcommand(s)\n\n"
    ++ "Usage: fxfuse help [COMMAND]...\n\n"
    ++ "Arguments:\n"
    ++ "  [COMMAND]...  Print help for the subcommand(s)\n"

def helpText : Option String → String
  | some "fuse" => fuseHelp
  | some "modules" => modulesHelp
  | some "levels" => levelsHelp
  | some "help" => helpHelp
  | _ => overallHelp

end EffectFusion.Command
