import FrameRelay.Command.Options
import FrameRelay.Command.Scan

/-! The whole command line: options of the run before or after the name of a stage, and options
of the stage after it. -/

namespace FrameRelay.Command

/-- What a run is asked to do. -/
inductive Request where
  | models
  | stage (options : StageOptions)

structure Invocation where
  globals : Globals
  request : Request

/-- Where a value comes from. -/
inductive Origin where
  | environment
  | word
  deriving Repr, DecidableEq

/-- A value of an option on one level. -/
structure Given where
  name : String
  value : Value
  origin : Origin

def globalSpecs : List OptionSpec := Globals.fields.map OptionField.spec

def requestNames : List String := StageOptions.defaults.map StageOptions.name ++ ["models"]

def firstLevel : Level := ⟨globalSpecs, requestNames ++ ["help"]⟩

def Request.level : Request → Level
  | .models => ⟨globalSpecs, []⟩
  | .stage options => ⟨options.specs ++ globalSpecs, []⟩

/-- The request of a name, with the options of its stage as they are when nothing is given. -/
def Request.ofName (name : String) : Request :=
  match StageOptions.ofName? name with
  | some options => .stage options
  | none => .models

/-- Adds the environment's value of one option that no word gave. -/
def addVariable (environment : List (String × String)) (given : List Given) (option : OptionSpec) :
    Except UsageFault (List Given) :=
  if given.any (·.name == option.name) then .ok given
  else
    match option.fallback.bind fun name => environment.lookup name with
    | none => .ok given
    | some text => (Scan.readFor option text).map fun value =>
        given ++ [⟨option.name, value, .environment⟩]

/-- All values of a level whose words have been read. -/
def Scan.close (scan : Scan) (level : Level) (environment : List (String × String)) :
    Except UsageFault (List Given) := do
  let scan ← scan.settle
  let given := scan.given.map fun (name, value) => ⟨name, value, .word⟩
  level.options.foldlM (addVariable environment) given

/-- The value for an option of the run that may stand on two levels: a word outranks the
environment, and of two words the later one counts. -/
def choose (outer inner : List Given) (name : String) : Option Given :=
  match inner.find? (·.name == name), outer.find? (·.name == name) with
  | some near, some far =>
    if near.origin = .environment ∧ far.origin = .word then some far else some near
  | some near, none => some near
  | none, far => far

def globalsOf (outer inner : List Given) : Globals :=
  OptionField.fill Globals.fields {} (globalSpecs.filterMap fun option =>
    (choose outer inner option.name).map fun given => (given.name, given.value))

def Request.fill (request : Request) (given : List Given) : Request :=
  match request with
  | .models => .models
  | .stage options => .stage (options.fill (given.map fun given => (given.name, given.value)))

/-- Reads the words of a command line. The level of the request is read to its end before a value
left pending on the first level is looked at. -/
def parse (environment : List (String × String)) (words : List String) :
    Except UsageFault Invocation := do
  let (scan, entered) ← Scan.words firstLevel words .empty
  match entered with
  | none =>
    let given ← scan.close firstLevel environment
    throw (if given.isEmpty then .nothingGiven else .commandMissing)
  | some (name, rest) =>
    let request := Request.ofName name
    let (innerScan, _) ← Scan.words request.level rest .empty
    let inner ← innerScan.close request.level environment
    let outer ← scan.close firstLevel environment
    return ⟨globalsOf outer inner, request.fill inner⟩

end FrameRelay.Command
