import LayoutScript.Text.Numeric

/-!
The arguments of the command line: an action, a file, and options that may stand
before or after the file. A long option may be shortened, a value may follow an
option or be joined to it by an equals sign, and short options may be joined to each
other. A double minus ends the options.
-/

namespace LayoutScript.Command

inductive Action where
  | check | tokens | ast | run
deriving Repr, DecidableEq

def Action.ofName? : String → Option Action
  | "check" => some .check
  | "tokens" => some .tokens
  | "ast" => some .ast
  | "run" => some .run
  | _ => none

/-- Which settings file an invocation asks for. A double minus that is joined to the
option counts as the end of options even there, so that no name is left. -/
inductive ConfigChoice where
  | search
  | file (path : String)
  | erased
deriving Repr, DecidableEq

def ConfigChoice.ofJoined (text : String) : ConfigChoice :=
  if text = "--" then .erased else .file text

structure Invocation where
  action : Action
  file : String
  verbose : Bool
  config : ConfigChoice
deriving Repr, DecidableEq

/-- What the arguments ask for. -/
inductive Request where
  | invoke (invocation : Invocation)
  | showVersion
  | showHelp
  | misuse
deriving Repr, DecidableEq

inductive Switch where
  | help | version | verbose | config
deriving Repr, DecidableEq

/-- The spellings of the options that are understood at one place. -/
abbrev Spellings := List (String × Switch)

/-- Options in front of the action. -/
def leadingSpellings : Spellings :=
  [("-h", .help), ("--help", .help), ("--version", .version)]

/-- Options behind the action. -/
def actionSpellings : Spellings :=
  [("-h", .help), ("--help", .help), ("-v", .verbose), ("--verbose", .verbose),
   ("--config", .config)]

/-- The short option with a letter. -/
def Spellings.short? (spellings : Spellings) (letter : Char) : Option Switch :=
  spellings.lookup (String.ofList ['-', letter])

/-- How a single argument reads: as an option with a text joined to it, as one that
could abbreviate several options, as an option that is not understood, or as a value. -/
inductive Reading where
  | switch (switch : Switch) (isLong : Bool) (joined : Option String)
  | ambiguous
  | unknown
  | value
deriving Repr, DecidableEq

/-- Splits a text at its first equals sign. -/
def splitEquals (text : String) : String × Option String :=
  let chars := text.toList
  match chars.dropWhile (· ≠ '=') with
  | _ :: value => (String.ofList (chars.takeWhile (· ≠ '=')), some (String.ofList value))
  | [] => (text, none)

/-- A minus sign with decimal digits of any script, perhaps with a point before the
last of them. A line feed at the end is passed over. -/
def isNegativeNumber (text : List Char) : Bool :=
  let line := if text.getLast? = some '\n' then text.dropLast else text
  match line with
  | '-' :: rest =>
      match rest.dropWhile Text.isDecimal with
      | [] => !rest.isEmpty
      | '.' :: fraction => !fraction.isEmpty && fraction.all Text.isDecimal
      | _ => false
  | _ => false

namespace Reading

def isLong (argument : String) : Bool :=
  match argument.toList with
  | '-' :: '-' :: _ => true
  | _ => false

/-- An option by its full name, perhaps with a text behind an equals sign. -/
def full? (spellings : Spellings) (argument : String) : Option Reading :=
  let (name, joined) := splitEquals argument
  match spellings.lookup argument, spellings.lookup name with
  | some found, _ => some (.switch found (isLong argument) none)
  | none, some found => some (.switch found (isLong argument) joined)
  | none, none => none

/-- The option that an argument abbreviates, or a short one with a text joined. -/
def abbreviated? (spellings : Spellings) (argument : String) : Option Reading :=
  match argument.toList with
  | '-' :: '-' :: _ =>
      let (name, joined) := splitEquals argument
      match spellings.filter fun entry => name.toList.isPrefixOf entry.1.toList with
      | [] => none
      | [entry] => some (.switch entry.2 true joined)
      | _ => some .ambiguous
  | '-' :: letter :: rest =>
      (spellings.short? letter).map fun found => .switch found false (some (String.ofList rest))
  | _ => none

/-- What looks like an option and is none is a value if it is a negative number or has
a blank. -/
def ofArgument (spellings : Spellings) (argument : String) : Reading :=
  match argument.toList with
  | '-' :: _ :: _ =>
      match full? spellings argument, abbreviated? spellings argument with
      | some reading, _ => reading
      | none, some reading => reading
      | none, none =>
          if isNegativeNumber argument.toList || argument.toList.contains ' ' then .value
          else .unknown
  | _ => .value

end Reading

/-- The arguments in front of the double minus, which alone may be options. -/
def optionArguments (arguments : List String) : List String := arguments.takeWhile (· ≠ "--")

/-- Whether an argument could abbreviate several options. All are looked at before any
of them takes effect. -/
def hasAmbiguity (spellings : Spellings) (arguments : List String) : Bool :=
  (optionArguments arguments).any fun argument =>
    Reading.ofArgument spellings argument = .ambiguous

/-- Whether any of the arguments reads as an option, understood or not. -/
def hasOption (spellings : Spellings) (arguments : List String) : Bool :=
  (optionArguments arguments).any fun argument => Reading.ofArgument spellings argument ≠ .value

/-- The options that an option without a value stands for, with those whose letters
are joined to it; none if the text joined is no such letters. -/
def cluster? (spellings : Spellings) (first : Switch) (isLong : Bool) (joined : Option String) :
    Option (List Switch) :=
  match joined with
  | none => some [first]
  | some text =>
      if isLong || text.isEmpty then none
      else (text.toList.mapM spellings.short?).map (first :: ·)

/-- What has been read behind the action so far. -/
structure Progress where
  file : Option String
  verbose : Bool
  config : ConfigChoice
  surplus : Bool
deriving Repr

namespace Progress

def addValue (progress : Progress) (argument : String) : Progress :=
  if progress.file.isNone then { progress with file := some argument }
  else { progress with surplus := true }

def addSurplus (progress : Progress) (arguments : List String) : Progress :=
  { progress with surplus := progress.surplus || !arguments.isEmpty }

/-- Adds the arguments behind the last option. A double minus may stand directly before
or behind the file, but only if the file is still to come. -/
def addLast (progress : Progress) (arguments : List String) : Progress :=
  if progress.file.isSome then progress.addSurplus arguments
  else
    match arguments with
    | "--" :: file :: rest => { progress with file := some file }.addSurplus rest
    | ["--"] => progress
    | file :: "--" :: rest => { progress with file := some file }.addSurplus rest
    | file :: rest => { progress with file := some file }.addSurplus rest
    | [] => progress

def finish (progress : Progress) (action : Action) : Request :=
  match progress.file with
  | some file =>
      if progress.surplus then .misuse
      else .invoke ⟨action, file, progress.verbose, progress.config⟩
  | none => .misuse

end Progress

/-- Reads what stands behind the action, option by option and value by value. -/
def readAction (action : Action) : List String → Progress → Request
  | [], progress => progress.finish action
  | argument :: rest, progress =>
      if !hasOption actionSpellings (argument :: rest) then
        (progress.addLast (argument :: rest)).finish action
      else
        match Reading.ofArgument actionSpellings argument with
        | .value => readAction action rest (progress.addValue argument)
        | .unknown => readAction action rest { progress with surplus := true }
        | .ambiguous => .misuse
        | .switch .config _ (some joined) =>
            readAction action rest { progress with config := .ofJoined joined }
        | .switch .config _ none =>
            match rest with
            | [] => .misuse
            | value :: others =>
                if value ≠ "--" && Reading.ofArgument actionSpellings value = .value then
                  readAction action others { progress with config := .file value }
                else .misuse
        | .switch switch isLong joined =>
            match cluster? actionSpellings switch isLong joined with
            | none => .misuse
            | some switches =>
                if switches.contains .help then .showHelp
                else readAction action rest { progress with verbose := true }

/-- Reads the arguments up to the action; `surplus` says that one of them was not
understood. -/
def readLeading : List String → Bool → Request
  | [], _ => .misuse
  | "--" :: _, _ => .misuse
  | argument :: rest, surplus =>
      match Reading.ofArgument leadingSpellings argument with
      | .unknown => readLeading rest true
      | .ambiguous => .misuse
      | .switch switch isLong joined =>
          match cluster? leadingSpellings switch isLong joined with
          | none => .misuse
          | some _ => if switch = .version then .showVersion else .showHelp
      | .value =>
          match Action.ofName? argument with
          | none => .misuse
          | some action =>
              if hasAmbiguity actionSpellings rest then .misuse
              else readAction action rest ⟨none, false, .search, surplus⟩

/-- Reads the arguments of the command line. -/
def Request.ofArguments (arguments : List String) : Request :=
  if hasAmbiguity leadingSpellings arguments then .misuse else readLeading arguments false

end LayoutScript.Command
