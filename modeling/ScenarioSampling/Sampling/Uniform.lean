import ScenarioSampling.Sampling.Region
import ScenarioSampling.Sampling.Words

/-!
# Drawing candidates

A sampler overwrites a candidate with fresh values. `UniformSampler` draws every variable on its own
and uniformly: a word times the number of values, divided by `2 ^ 64`, where a second word corrects
the bias of the first when it can matter. A domain of one value takes no word.
-/

namespace ScenarioSampling

/-- Draws candidates, with words from a source of type `ρ`. A draw that crashes leaves the sampler,
the source and the candidate as they were. -/
class Sampler (σ ρ : Type) where
  name : σ → String
  draw : σ → Region → ρ → Candidate → Except Crash (Candidate × σ × ρ)

/-- The signed number with the same 64 bits. -/
def signedWord (w : UInt64) : Int := w.toInt64.toInt

section Drawing

variable {ρ : Type} [WordSource ρ]

/-- A number below `range`, which is at least one and at most `2 ^ 64 - 1`. -/
def drawBelow (range : Nat) (source : ρ) : Nat × ρ :=
  let (w, source) := WordSource.next source
  let product := w.toNat * range
  let high := product / wordRange
  let low := product % wordRange
  if wordRange - range < low then
    let (w, source) := WordSource.next source
    let carry := w.toNat * range / wordRange
    (if wordRange ≤ low + carry then high + 1 else high, source)
  else (high, source)

/-- A value of the domain. One word gives a value of the widest domain directly. -/
def drawFrom (d : Domain) (source : ρ) : Int × ρ :=
  if d.isSingleton then (d.lo, source)
  else
    let range := (d.hi - d.lo + 1).toNat
    if range = wordRange then
      let (w, source) := WordSource.next source
      (signedWord w, source)
    else
      let (offset, source) := drawBelow range source
      (d.lo + offset, source)

/-- Overwrites the values that have a domain. -/
def overwrite : List Int → List Domain → ρ → List Int × ρ
  | _ :: vs, d :: ds, source =>
    let (v, source) := drawFrom d source
    let (vs, source) := overwrite vs ds source
    (v :: vs, source)
  | vs, _, source => (vs, source)

end Drawing

/-- Draws every value uniformly from its current domain. -/
inductive UniformSampler where
  | mk
  deriving DecidableEq, Repr

namespace UniformSampler

/-- The name of the sampler. -/
def title : String := "UniformSampler"

variable {ρ : Type} [WordSource ρ]

/-- Gives the candidate the right length and draws every value of it. -/
def sampleInto (d : Region) (source : ρ) (c : Candidate) : Candidate × ρ :=
  let c := if c.length = d.length then c else c.resize d.length
  let (vs, source) := overwrite c.values d.current source
  (⟨vs⟩, source)

/-- Draws a candidate of the right length from scratch. -/
def sample (d : Region) (source : ρ) : Candidate × ρ :=
  sampleInto d source (Candidate.zeroed d.length)

instance : Sampler UniformSampler ρ where
  name _ := title
  draw s d source c :=
    let (c, source) := sampleInto d source c
    .ok (c, s, source)

end UniformSampler

end ScenarioSampling
