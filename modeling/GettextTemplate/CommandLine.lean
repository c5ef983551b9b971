/-!
The command line. Arguments are read from the left, and the first that cannot be understood
decides; a request for the version or for help decides as well.
-/

namespace GettextTemplate.CommandLine

inductive Choice where
  | source
  | outputDir
deriving DecidableEq

inductive Misuse where
  | unknownOption (text : String)
  | surplusArgument (text : String)
  | surplusValue (option : String)
  | missingValue (option : Choice)
  | emptyValue (option : Choice)
  | repeated (option : String)
  | missingSource
deriving DecidableEq

namespace Choice

def name : Choice → String
  | .source => "--source"
  | .outputDir => "--output-dir"

end Choice

namespace Misuse

def message : Misuse → String
  | .unknownOption text => "unknown option " ++ text
  | .surplusArgument text => "unexpected argument " ++ text
  | .surplusValue option => option ++ " takes no value"
  | .missingValue option => option.name ++ " needs a value"
  | .emptyValue option => option.name ++ " must not be empty"
  | .repeated option => option ++ " is given twice"
  | .missingSource => "--source is required"

end Misuse

structure Settings where
  package : Option String := none
  source : Option String := none
  outputDir : Option String := none
  noHeader : Bool := false
deriving DecidableEq

inductive Request where
  | run (source package outputDir : String) (hasHeader : Bool)
  | version
  | help
deriving DecidableEq

inductive Progress where
  | settings (settings : Settings)
  /-- The next argument must be the value of an option. -/
  | awaiting (settings : Settings) (option : Choice)
  | decided (request : Request)
deriving DecidableEq

namespace Settings

/-- The value of an option is a path, which is never empty. -/
def choose (settings : Settings) (option : Choice) (value : String) : Except Misuse Settings :=
  match option with
  | .source =>
    if settings.source.isSome then .error (.repeated option.name)
    else if value.isEmpty then .error (.emptyValue option)
    else .ok { settings with source := some value }
  | .outputDir =>
    if settings.outputDir.isSome then .error (.repeated option.name)
    else if value.isEmpty then .error (.emptyValue option)
    else .ok { settings with outputDir := some value }

def dropHeader (settings : Settings) : Except Misuse Settings :=
  if settings.noHeader then .error (.repeated "--no-header")
  else .ok { settings with noHeader := true }

/-- A free argument names the package. -/
def name (settings : Settings) (package : String) : Except Misuse Settings :=
  match settings.package with
  | some _ => .error (.surplusArgument package)
  | none => .ok { settings with package := some package }

def defaultPackage : String := "TranslationTest"

def complete (settings : Settings) : Except Misuse Request :=
  match settings.source with
  | none => .error .missingSource
  | some source =>
    .ok (.run source (settings.package.getD defaultPackage) (settings.outputDir.getD ".")
      (!settings.noHeader))

/-- Reads a long option without its two hyphens. A value may be attached by an equals sign. -/
def long (settings : Settings) (text : List Char) : Except Misuse Progress := do
  let name := String.ofList (text.takeWhile (· ≠ '='))
  let value? : Option String :=
    match text.dropWhile (· ≠ '=') with
    | [] => none
    | _ :: value => some (.ofList value)
  let valued (option : Choice) : Except Misuse Progress :=
    match value? with
    | none => .ok (.awaiting settings option)
    | some value => .settings <$> settings.choose option value
  let bare (progress : Except Misuse Progress) : Except Misuse Progress :=
    match value? with
    | none => progress
    | some _ => .error (.surplusValue ("--" ++ name))
  match name with
  | "source" => valued .source
  | "output-dir" => valued .outputDir
  | "no-header" => bare (.settings <$> settings.dropHeader)
  | "version" => bare (.ok (.decided .version))
  | "help" => bare (.ok (.decided .help))
  | _ => .error (.unknownOption ("--" ++ name))

/-- Reads short options without their hyphen. One that takes a value takes the rest as its value,
with or without an equals sign before it. -/
def short (settings : Settings) : List Char → Except Misuse Progress
  | [] => .ok (.settings settings)
  | letter :: rest =>
    let valued (option : Choice) : Except Misuse Progress :=
      match rest with
      | [] => .ok (.awaiting settings option)
      | '=' :: value => .settings <$> settings.choose option (.ofList value)
      | value => .settings <$> settings.choose option (.ofList value)
    match letter with
    | 's' => valued .source
    | 'o' => valued .outputDir
    | 'V' => .ok (.decided .version)
    | 'h' => .ok (.decided .help)
    | _ => .error (.unknownOption (.ofList ['-', letter]))

/-- Reads one argument. A hyphen alone is a free argument. -/
def read (settings : Settings) (argument : String) : Except Misuse Progress :=
  match argument.toList with
  | '-' :: '-' :: text => settings.long text
  | '-' :: letter :: rest => settings.short (letter :: rest)
  | _ => .settings <$> settings.name argument

end Settings

/-- Reads arguments after two hyphens, all of which are free. -/
def readFree (settings : Settings) : List String → Except Misuse Settings
  | [] => .ok settings
  | argument :: rest => do readFree (← settings.name argument) rest

def isValue (argument : String) : Bool :=
  match argument.toList with
  | '-' :: _ :: _ => false
  | _ => true

def readAll (settings : Settings) : List String → Except Misuse Request
  | [] => settings.complete
  | "--" :: rest => do (← readFree settings rest).complete
  | argument :: rest => do
    match ← settings.read argument with
    | .settings settings => readAll settings rest
    | .decided request => return request
    | .awaiting settings option =>
      match rest with
      | [] => .error (.missingValue option)
      | value :: rest =>
        if isValue value then readAll (← settings.choose option value) rest
        else .error (.missingValue option)

def parse (arguments : List String) : Except Misuse Request :=
  readAll {} arguments

end GettextTemplate.CommandLine
