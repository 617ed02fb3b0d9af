import FrameRelay.Command.OptionField
import FrameRelay.Text.Terminal

/-! Reading the words of one level of a command line. The value of an option stands in the same
word after an equals sign or in the word that follows; in the second case it is only looked at
when the next option comes or the words end. -/

namespace FrameRelay.Command
open Text

/-- How a word looks by itself. -/
inductive Word where
  | separator
  | long (name : String) (value : Option String)
  | short (letters : List Char)
  | plain
  deriving Repr, DecidableEq

namespace Word

/-- Splits the text behind two dashes at the first equals sign. -/
def ofLong (cs : List Char) : Word :=
  let name := String.ofList (cs.takeWhile (· != '='))
  match cs.dropWhile (· != '=') with
  | [] => .long name none
  | _ :: value => .long name (some (String.ofList value))

/-- A single dash is an ordinary word. -/
def ofText (text : String) : Word :=
  match text.toList with
  | ['-', '-'] => .separator
  | '-' :: '-' :: cs => ofLong cs
  | ['-'] => .plain
  | '-' :: letters => .short letters
  | _ => .plain

/-- Digits with at most one point, which does not come after the exponent mark, and at most one
mark, which does not come last. -/
def continuesNumber (point mark : Bool) : List Char → Bool
  | [] => true
  | c :: rest =>
    if c == '.' then !point && !mark && continuesNumber true mark rest
    else if c == 'e' || c == 'E' then !mark && !rest.isEmpty && continuesNumber point true rest
    else c.isDigit && continuesNumber point mark rest

/-- Looks like a number without a sign: a digit comes first. -/
def isNumber : List Char → Bool
  | [] => false
  | c :: rest => c.isDigit && continuesNumber false false rest

end Word

/-- Why words are not carried out: they ask for something else, or they are at fault. -/
inductive UsageFault where
  | help
  | version
  | nothingGiven
  | commandMissing
  | unknownCommand (word : String)
  | unknownArgument (word : String)
  | valueMissing (option : OptionSpec)
  | valueNotAllowed (option : OptionSpec) (value : String)
  | valueUnreadable (option : OptionSpec) (value reason : String)
  | valueNeedless (option : String)
  | repeated (option : String)
  deriving Repr, DecidableEq, Inhabited

/-- A message about words at fault, for a terminal. -/
def complaint (text : String) : String :=
  boldRed "error:" ++ " " ++ text ++ "\n\nFor more information, try '" ++ bold "--help" ++ "'."

def UsageFault.styledMessage : UsageFault → String
  | .help => "help was asked for"
  | .version => "the version was asked for"
  | .nothingGiven => "nothing was asked for"
  | .commandMissing => complaint "a command is missing"
  | .unknownCommand word => complaint ("unknown command '" ++ yellow word ++ "'")
  | .unknownArgument word => complaint ("unexpected argument '" ++ yellow word ++ "'")
  | .valueMissing option =>
    complaint ("a value is missing for '" ++ bold ("--" ++ option.name) ++ "'")
  | .valueNotAllowed option value =>
    complaint ("value '" ++ yellow value ++ "' is not allowed for '" ++
      bold ("--" ++ option.name) ++ "'")
  | .valueUnreadable option value reason =>
    complaint ("invalid value '" ++ yellow value ++ "' for '" ++
      bold ("--" ++ option.name ++ " <" ++ option.placeholder ++ ">") ++ "': " ++ reason)
  | .valueNeedless option => complaint ("'" ++ bold ("--" ++ option) ++ "' takes no value")
  | .repeated option => complaint ("'" ++ bold ("--" ++ option) ++ "' is given more than once")

/-- The message without styles. Control sequences of the words themselves go too, and one that a
word leaves open takes along what stands behind it. -/
def UsageFault.message (fault : UsageFault) : String := plainText fault.styledMessage

/-- What may stand on one level. Only the first one has commands and a version. -/
structure Level where
  options : List OptionSpec
  commands : List String

namespace Level

def isFirst (level : Level) : Bool := !level.commands.isEmpty

def find? (level : Level) (name : String) : Option OptionSpec :=
  level.options.find? (·.name == name)

/-- The fault of a word that has no place on the level. -/
def stray (level : Level) (word : String) : UsageFault :=
  if level.isFirst then .unknownCommand word else .unknownArgument word

/-- The fault of a word behind the separator, where a command does not count as one. -/
def strayBehind (level : Level) (word : String) : UsageFault :=
  if word ∈ level.commands then .unknownArgument word else level.stray word

def helpOn (level : Level) : List String → UsageFault
  | [] => .help
  | [word] => if word ∈ level.commands then .help else .unknownCommand word
  | word :: next :: _ => .unknownCommand (if word ∈ level.commands then next else word)

end Level

/-- Values read so far, and the last option with its value, if that has come. -/
structure Scan where
  given : List (String × Value)
  pending : Option (OptionSpec × Option String)

namespace Scan

def empty : Scan := ⟨[], none⟩

def has (scan : Scan) (name : String) : Bool := scan.given.any (·.1 == name)

def readFor (option : OptionSpec) (text : String) : Except UsageFault Value :=
  match option.takes with
  | none => .ok (.truth true)
  | some kind =>
    match kind.read text with
    | .ok value => .ok value
    | .error .notAllowed => .error (.valueNotAllowed option text)
    | .error (.unreadable reason) => .error (.valueUnreadable option text reason)

/-- Reads a value, unless the option has one already. -/
def assign (scan : Scan) (option : OptionSpec) (text : String) : Except UsageFault Scan :=
  if scan.has option.name then .error (.repeated option.name)
  else (readFor option text).map fun value =>
    { scan with given := scan.given ++ [(option.name, value)] }

def settle (scan : Scan) : Except UsageFault Scan :=
  match scan.pending with
  | none => .ok scan
  | some (option, none) => .error (.valueMissing option)
  | some (option, some text) => { scan with pending := none }.assign option text

def awaits (scan : Scan) : Option OptionSpec :=
  match scan.pending with
  | some (option, none) => some option
  | _ => none

/-- Answers a request for help or the version once all before it is well. -/
def answer (scan : Scan) (request : UsageFault) : Except UsageFault Scan :=
  match scan.settle with
  | .error fault => .error fault
  | .ok _ => .error request

def takeOption (scan : Scan) (option : OptionSpec) (value : Option String) :
    Except UsageFault Scan :=
  match option.takes, value with
  | none, some _ => .error (.valueNeedless option.name)
  | none, none => scan.settle.bind (·.assign option "")
  | some _, some text => scan.settle.bind (·.assign option text)
  | some _, none => scan.settle.map fun scan => { scan with pending := some (option, none) }

def takeLong (scan : Scan) (level : Level) (name : String) (value : Option String) :
    Except UsageFault Scan :=
  match level.find? name with
  | some option => scan.takeOption option value
  | none =>
    if name == "help" || level.isFirst && name == "version" then
      if value.isSome then .error (.valueNeedless name)
      else scan.answer (if name == "help" then .help else .version)
    else .error (.unknownArgument ("--" ++ name))

/-- A negative number is a value where the awaiting option takes one. -/
def takeShort (scan : Scan) (level : Level) (word : String) (letters : List Char) :
    Except UsageFault Scan :=
  match scan.awaits with
  | some option =>
    if option.signed && Word.isNumber letters then
      .ok { scan with pending := some (option, some word) }
    else flagOf scan level word letters
  | none => flagOf scan level word letters
where
  flagOf (scan : Scan) (level : Level) (word : String) : List Char → Except UsageFault Scan
    | 'h' :: _ => scan.answer .help
    | 'V' :: _ => if level.isFirst then scan.answer .version else .error (.unknownArgument word)
    | _ => .error (.unknownArgument word)

def takePlain (scan : Scan) (level : Level) (word : String) : Except UsageFault Scan :=
  match scan.awaits with
  | some option => .ok { scan with pending := some (option, some word) }
  | none => .error (level.stray word)

/-- Reads words up to the end or up to a command, which comes with the words behind it. -/
def words (level : Level) :
    List String → Scan → Except UsageFault (Scan × Option (String × List String))
  | [], scan => .ok (scan, none)
  | word :: rest, scan =>
    if scan.awaits.isNone && word ∈ level.commands then
      if word == "help" then .error (level.helpOn rest) else .ok (scan, some (word, rest))
    else
      match Word.ofText word with
      | .separator =>
        match rest with
        | [] => .ok (scan, none)
        | next :: _ => .error (level.strayBehind next)
      | .long name value => (scan.takeLong level name value).bind (words level rest)
      | .short letters => (scan.takeShort level word letters).bind (words level rest)
      | .plain => (scan.takePlain level word).bind (words level rest)

end Scan

end FrameRelay.Command
