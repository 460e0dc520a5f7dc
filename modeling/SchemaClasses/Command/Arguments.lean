import SchemaClasses.Pipeline

/-!
# Command lines

A command line names a command, the source of a document, and options. Options may stand before
and after the source, their values behind an equals sign or in the next argument. No option may be
given twice, and everything behind two dashes is no option.
-/

namespace SchemaClasses

/-- What is to be done with a document. -/
inductive Action where
  /-- Its flattened schemas are written. -/
  | flatten
  /-- The document is written with its remote references inlined. -/
  | inlineRemote
  /-- Its classes are written in some format. -/
  | models (format rootName : String)
  deriving DecidableEq, Repr

/-- A command line. -/
structure Invocation where
  /-- What is to be done. -/
  action : Action
  /-- Where the document comes from. -/
  source : String
  /-- The URI that relative references are resolved against, if not that of the source. -/
  baseUri : Option String
  /-- Whether remote references are left alone. -/
  noInline : Bool
  /-- The file that is written to, if not the standard output. -/
  output : Option String
  /-- Whether JSON is written on several lines. -/
  pretty : Bool
  /-- Whether the run is to be reported in detail. -/
  verbose : Bool
  deriving DecidableEq, Repr

namespace Invocation

/-- The options of a command line with their values; a switch has none. -/
abbrev Options := List (String × Option String)

/-- The names of the options that take a value, for a command. -/
def valueOptions (command : String) : List String :=
  ["base-uri", "output"] ++ if command = "models" then ["format", "root-name"] else []

/-- The names of the switches. -/
def switches : List String := ["no-inline", "pretty", "verbose"]

/-- Adds an option that is not given yet. -/
def addOption (options : Options) (name : String) (value : Option String) : Option Options :=
  if Assoc.contains options name then none else some (Assoc.insert options name value)

/-- Whether an argument is an option rather than a value: a dash alone is a value. -/
def looksLikeOption (argument : String) : Bool :=
  argument.startsWith "-" && argument ≠ "-"

/-- The name of a long option and its value behind an equals sign. -/
def splitLong (argument : String) : String × Option String :=
  let text := argument.toList.drop 2
  let name := String.ofList (text.takeWhile fun c => c ≠ '=')
  match text.dropWhile fun c => c ≠ '=' with
  | [] => (name, none)
  | _ :: value => (name, some (String.ofList value))

/-- Adds a cluster of short options, of which `v` is the only one. -/
def addShort (options : Options) (letters : List Char) : Option Options :=
  letters.foldlM (fun options c => if c = 'v' then addOption options "verbose" none else none)
    options

/-- Reads the arguments behind a command: the options, and the arguments that are none. -/
def readArguments (command : String) :
    List String → Options → List String → Option (Options × List String)
  | [], options, plain => some (options, plain)
  | argument :: rest, options, plain =>
    if argument = "--" then some (options, plain ++ rest)
    else if argument.startsWith "--" then
      let (name, value) := splitLong argument
      if name ∈ valueOptions command then
        match value, rest with
        | some value, rest => do
          readArguments command rest (← addOption options name (some value)) plain
        | none, value :: rest =>
          if looksLikeOption value then none
          else do readArguments command rest (← addOption options name (some value)) plain
        | none, [] => none
      else if name ∈ switches ∧ value.isNone then do
        readArguments command rest (← addOption options name none) plain
      else none
    else if looksLikeOption argument then do
      readArguments command rest (← addShort options (argument.toList.drop 1)) plain
    else readArguments command rest options (plain ++ [argument])

/-- The value of an option, if it is given. -/
def value? (options : Options) (name : String) : Option String :=
  (Assoc.find? options name).bind id

/-- The action of a command. -/
def actionOf? (command : String) (options : Options) : Option Action :=
  if command = "flatten" then some .flatten
  else if command = "inline" then some .inlineRemote
  else if command = "models" then
    some (.models ((value? options "format").getD "json")
      ((value? options "root-name").getD defaultRootName))
  else none

/-- The switches before the command, and the rest. -/
def readFront : List String → Options → Option (Options × List String)
  | [], options => some (options, [])
  | argument :: rest, options =>
    if argument = "--verbose" then do readFront rest (← addOption options "verbose" none)
    else if argument.startsWith "--" then none
    else if looksLikeOption argument then do
      readFront rest (← addShort options (argument.toList.drop 1))
    else some (options, argument :: rest)

/-- The command line that a list of arguments stands for. -/
def ofArguments? (arguments : List String) : Option Invocation := do
  let (front, arguments) ← readFront arguments []
  match arguments with
  | [] => none
  | command :: rest =>
    let (options, plain) ← readArguments command rest [] []
    let action ← actionOf? command options
    if value? options "output" = some "" then none
    else
      match plain with
      | [source] =>
        return {
          action, source
          baseUri := value? options "base-uri"
          noInline := Assoc.contains options "no-inline"
          output := value? options "output"
          pretty := Assoc.contains options "pretty"
          verbose := Assoc.contains front "verbose" || Assoc.contains options "verbose" }
      | _ => none

end Invocation

end SchemaClasses
