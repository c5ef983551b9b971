import GettextTemplate.CommandLine
import GettextTemplate.Run

/-!
The program: what it does for its arguments and what it prints.
-/

namespace GettextTemplate.Program

/-- What a program leaves behind besides its files. The lines that it logs, which go to its standard
output as well, are left out. -/
structure Output where
  exitCode : Nat
  stdout : String := ""
  stderr : String := ""
deriving DecidableEq

def versionText : String := "pot-harvester 0.1.0\n"

def usageText : String :=
  "Usage: pot-harvester [OPTIONS] --source <SOURCE> [PACKAGE]\n"

def helpText : String :=
  "Extracts localizable text from Modelica model trees into gettext POT templates\n\n" ++ usageText ++
  "\nArguments:\n" ++
  "  [PACKAGE]  Package to harvest (dotted names select nested packages) " ++
    "[default: TranslationTest]\n" ++
  "\nOptions:\n" ++
  "  -s, --source <SOURCE>          Model tree snapshot (JSON)\n" ++
  "      --no-header                Omit the gettext header block\n" ++
  "  -o, --output-dir <OUTPUT_DIR>  Directory receiving <package>.pot [default: .]\n" ++
  "  -h, --help                     Print help\n" ++
  "  -V, --version                  Print version\n"

variable {m : Type → Type} [Monad m] {σ : Type}

/-- The output of a run: the path of its template, or what went wrong. -/
def Output.ofOutcome : Except RunError Report → Output
  | .ok report => { exitCode := 0, stdout := report.path ++ "\n" }
  | .error e => { exitCode := 1, stderr := "Error: " ++ e.message ++ "\n" }

def run (files : Files m σ) (arguments : List String) : m Output :=
  match CommandLine.parse arguments with
  | .error misuse =>
    return { exitCode := 2, stderr := "error: " ++ misuse.message ++ "\n\n" ++ usageText }
  | .ok .version => return { exitCode := 0, stdout := versionText }
  | .ok .help => return { exitCode := 0, stdout := helpText }
  | .ok (.run source package directory hasHeader) => do
    let destination : Destination := { format := { hasHeader }, directory }
    return .ofOutcome (← (destination.publishFrom files source package).run)

end GettextTemplate.Program
