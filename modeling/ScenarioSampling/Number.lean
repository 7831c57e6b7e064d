/-!
# Machine number formats

The numbers of this library are `Int` and `Nat`; what a machine format adds is a range. A format is
signed or not and has one of five widths. `IntFormat.checked` refuses a number outside the range,
`countSucc` stops at the largest 64-bit count and `countSuccWrapping` starts over.
-/

namespace ScenarioSampling

/-- How many bits a format has. -/
inductive Width where
  | w8
  | w16
  | w32
  | w64
  | w128
  deriving DecidableEq, Repr

/-- Half of how many numbers there are of a width. -/
def Width.half : Width → Nat
  | .w8 => 0x80
  | .w16 => 0x8000
  | .w32 => 0x80000000
  | .w64 => 0x8000000000000000
  | .w128 => 0x80000000000000000000000000000000

/-- A two's complement format if `signed`, else a format of non-negative numbers. -/
structure IntFormat where
  signed : Bool
  width : Width
  deriving DecidableEq, Repr

namespace IntFormat

/-- The format of domain bounds and of values. -/
def int64 : IntFormat := ⟨true, .w64⟩

/-- The widest signed format. -/
def int128 : IntFormat := ⟨true, .w128⟩

/-- The least number of a format. -/
def least (f : IntFormat) : Int :=
  if f.signed then -(f.width.half : Int) else 0

/-- The greatest number of a format. -/
def greatest (f : IntFormat) : Int :=
  if f.signed then f.width.half - 1 else 2 * f.width.half - 1

/-- The number is in the range of the format. -/
def Fits (f : IntFormat) (v : Int) : Prop := f.least ≤ v ∧ v ≤ f.greatest

instance (f : IntFormat) (v : Int) : Decidable (f.Fits v) :=
  inferInstanceAs (Decidable (_ ∧ _))

/-- The number itself, unless it is out of range. -/
@[inline]
def checked (f : IntFormat) (v : Int) : Option Int :=
  if f.least ≤ v ∧ v ≤ f.greatest then some v else none

end IntFormat

/-- The largest 64-bit count. -/
def maxCount : Nat := 18446744073709551615

/-- How many numbers a 64-bit word can hold. -/
def wordRange : Nat := 18446744073709551616

/-- A count or score that stops at the largest 64-bit count. -/
def saturate (n : Nat) : Nat := min n maxCount

/-- Counts one more, and stays at the largest 64-bit count. -/
def countSucc (n : Nat) : Nat := saturate (n + 1)

/-- Counts one more, and starts over after the largest 64-bit count. -/
def countSuccWrapping (n : Nat) : Nat := (n + 1) % wordRange

end ScenarioSampling
