import FrameRelay.Engine.Model
import FrameRelay.Text.Duration

/-! Errors of the stage protocol, the kind each belongs to and the code the host gets. -/

namespace FrameRelay

/-- Where in the life of a stream an error arises. -/
inductive ErrorKind where
  | configuration
  | submission
  | drain
  deriving Repr, DecidableEq

inductive StageError where
  | configuration (reason : String)
  | formatMismatch (expected actual : PixelFormat)
  | create (cause : EngineError)
  | notConfigured
  | submission (pts : Int) (cause : EngineError)
  | output (index count : Nat) (cause : EngineError)
  | downstream (pts : Int) (reason : String)
  | drainTimeout (remaining polls : Nat) (waited : Duration)
  | drain (cause : StageError)
  | streamFailed (reason : String)
  | fault (reason : Fault)
  deriving Repr, DecidableEq, Inhabited

namespace StageError

def message : StageError → String
  | .configuration reason => "invalid configuration: " ++ reason
  | .formatMismatch expected actual =>
    "pixel format mismatch: expected " ++ expected.text ++ ", got " ++ actual.text
  | .create cause => "processor could not be created: " ++ cause.message
  | .notConfigured => "stage has no processor"
  | .submission pts cause =>
    "processing failed for frame with pts " ++ toString pts ++ ": " ++ cause.message
  | .output index count cause =>
    "output " ++ toString index ++ " of " ++ toString count ++ " could not be produced: " ++
      cause.message
  | .downstream pts reason =>
    "downstream rejected frame with pts " ++ toString pts ++ ": " ++ reason
  | .drainTimeout remaining polls waited =>
    "drain stalled with " ++ toString remaining ++ " outputs pending after " ++ toString polls ++
      " polls (" ++ waited.text ++ ")"
  | .drain cause => "drain failed: " ++ cause.message
  | .streamFailed reason => "stream failed while draining: " ++ reason
  | .fault reason => reason.text

def kind : StageError → ErrorKind
  | .configuration _ | .formatMismatch .. | .create _ => .configuration
  | .notConfigured | .submission .. | .output .. | .downstream .. => .submission
  | .drainTimeout .. | .drain _ | .streamFailed _ | .fault _ => .drain

/-- Whether there is a fault below the error. The call that it came from does not return then. -/
def isFault : StageError → Bool
  | .create cause | .submission _ cause | .output _ _ cause => cause.isFault
  | .drain cause => cause.isFault
  | .fault _ => true
  | _ => false

/-- The code for an invalid argument, or the one for work that could not be done. -/
def hostCode (error : StageError) : Int :=
  match error.kind with
  | .configuration => -22
  | .submission | .drain => -38

/-- Only a rejected submission leaves the stage ready for the next frame. -/
def isRecoverable : StageError → Bool
  | .submission _ cause => !cause.isFault
  | _ => false

/-- Marks an error as one of the drain; one that already is stays as it is. -/
def intoDrain : StageError → StageError
  | .drainTimeout remaining polls waited => .drainTimeout remaining polls waited
  | .drain cause => .drain cause
  | .streamFailed reason => .streamFailed reason
  | .fault reason => .fault reason
  | other => .drain other

theorem kind_intoDrain (error : StageError) : error.intoDrain.kind = .drain := by
  cases error <;> rfl

theorem not_isRecoverable_of_kind_drain {error : StageError} (late : error.kind = .drain) :
    error.isRecoverable = false := by
  cases error <;> simp_all [kind, isRecoverable]

/-- The messages of the causes below an error, outermost first. -/
def causes : StageError → List String
  | .create cause | .submission _ cause | .output _ _ cause => [cause.message]
  | .drain cause => cause.message :: cause.causes
  | _ => []

end StageError

/-- The result of a step of the stage protocol. -/
abbrev Outcome (α : Type) := Except StageError α

end FrameRelay
