/-!
# Crashes

An operation whose caller breaks its precondition, or whose arithmetic leaves its format, is cut
short. `Crash` lists the causes; `Crash.message?` gives the text each one leaves behind.
-/

namespace ScenarioSampling

/-- What a sampler leaves behind when it gives up. -/
inductive Payload where
  | text (message : String)
  | unreadable
  deriving DecidableEq, Repr

/-- Why an operation was cut short. -/
inductive Crash where
  /-- An interval was asked for whose bounds are the wrong way round. -/
  | emptyInterval
  | candidateRead (len index : Nat)
  | candidateWrite (len index : Nat)
  /-- A model was asked for a variable it does not have. -/
  | noVariable (len index : Nat)
  /-- A region was asked for a variable it does not have. -/
  | noDomain (len index : Nat)
  | openModel
  /-- A list was indexed past its end. -/
  | outOfRange (len index : Nat)
  | overflow
  | samplerFailed (payload : Payload)
  deriving DecidableEq, Repr

namespace Crash

/-- The text for an index beyond the end, with the operation and what was indexed. -/
def boundsText (operation noun : String) (len index : Nat) : String :=
  s!"called `{operation}` with {noun} out of bounds: the len is {len} but the index is {index}"

/-- The text that a crash leaves behind; a payload that is no text leaves none. -/
def message? : Crash → Option String
  | emptyInterval => some
      ("called `ClosedInterval::new` with an empty range: "
        ++ "min must be less than or equal to max")
  | candidateRead len index => some (boundsText "Instance::get" "variable index" len index)
  | candidateWrite len index => some (boundsText "Instance::set" "variable index" len index)
  | noVariable len index => some (boundsText "ModelMirror::variable" "variable index" len index)
  | noDomain len index => some (boundsText "SamplingDomains::domain" "variable index" len index)
  | openModel => some "called `SamplingEngine::run` with a model that is not closed"
  | outOfRange len index =>
      some s!"index out of bounds: the len is {len} but the index is {index}"
  | overflow => some "attempt to add with overflow"
  | samplerFailed (.text message) => some message
  | samplerFailed .unreadable => none

end Crash

end ScenarioSampling
