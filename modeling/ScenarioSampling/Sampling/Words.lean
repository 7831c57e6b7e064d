/-!
# Sources of random words

A source gives one 64-bit word after the other. `WordCycle` repeats a given list and `ChaCha` is the
ChaCha stream cipher with eight rounds, its key spread from a 64-bit seed.
-/

namespace ScenarioSampling

/-- Something that gives one word after the other. -/
class WordSource (ρ : Type) where
  next : ρ → UInt64 × ρ

/-- Any sequence of words, and how many were taken. -/
structure WordStream where
  word : Nat → UInt64
  position : Nat

instance : WordSource WordStream :=
  ⟨fun s => (s.word s.position, { s with position := s.position + 1 })⟩

/-- A list of words repeated for ever, and how many were taken; an empty list stands for zeros. -/
structure WordCycle where
  words : Array UInt64
  taken : Nat
  deriving DecidableEq, Repr

instance : WordSource WordCycle :=
  ⟨fun s => (s.words.getD (s.taken % s.words.size) 0, { s with taken := s.taken + 1 })⟩

/-- A key, the number of the next block, and the words of the last block that are still to come. -/
structure ChaCha where
  key : Vector UInt32 8
  block : UInt64
  ready : List UInt64
  deriving DecidableEq, Repr

namespace ChaCha

/-- Moves the bits up by `n` places; those that fall out come in below. -/
def rotateLeft (x : UInt32) (n : UInt32) : UInt32 := (x <<< n) ||| (x >>> (32 - n))

/-- Moves the bits down by `n` places, of which only the rest modulo 32 matters. -/
def rotateRight (x : UInt32) (n : UInt32) : UInt32 :=
  if n % 32 = 0 then x else (x >>> (n % 32)) ||| (x <<< (32 - n % 32))

/-- Mixes the four words of `s` at these places. -/
def quarter (s : Vector UInt32 16) (a b c d : Fin 16) : Vector UInt32 16 :=
  let xa := s[a]
  let xb := s[b]
  let xc := s[c]
  let xd := s[d]
  let xa := xa + xb
  let xd := rotateLeft (xd ^^^ xa) 16
  let xc := xc + xd
  let xb := rotateLeft (xb ^^^ xc) 12
  let xa := xa + xb
  let xd := rotateLeft (xd ^^^ xa) 8
  let xc := xc + xd
  let xb := rotateLeft (xb ^^^ xc) 7
  (((s.set a xa).set b xb).set c xc).set d xd

/-- Four columns, then four diagonals. -/
def doubleRound (s : Vector UInt32 16) : Vector UInt32 16 :=
  let s := quarter s 0 4 8 12
  let s := quarter s 1 5 9 13
  let s := quarter s 2 6 10 14
  let s := quarter s 3 7 11 15
  let s := quarter s 0 5 10 15
  let s := quarter s 1 6 11 12
  let s := quarter s 2 7 8 13
  quarter s 3 4 9 14

/-- The state a block starts from: four constants, the key, the block number and a zero nonce. -/
def blockInput (key : Vector UInt32 8) (block : UInt64) : Vector UInt32 16 :=
  #v[0x61707865, 0x3320646e, 0x79622d32, 0x6b206574,
    key[0], key[1], key[2], key[3], key[4], key[5], key[6], key[7],
    block.toUInt32, (block >>> 32).toUInt32, 0, 0]

/-- Eight rounds over the input of a block, which is added to what they give. -/
def blockOutput (key : Vector UInt32 8) (block : UInt64) : Vector UInt32 16 :=
  let start := blockInput key block
  let mixed := doubleRound (doubleRound (doubleRound (doubleRound start)))
  start.zipWith (· + ·) mixed

/-- Joins neighbours, the first of a pair being the lower half. -/
def pairWords : List UInt32 → List UInt64
  | low :: high :: rest => (low.toUInt64 ||| (high.toUInt64 <<< 32)) :: pairWords rest
  | _ => []

/-- Takes a word; when none is ready, those of the next block are made. -/
def next (s : ChaCha) : UInt64 × ChaCha :=
  match s.ready with
  | w :: ws => (w, { s with ready := ws })
  | [] =>
    match pairWords (blockOutput s.key s.block).toList with
    | w :: ws => (w, { s with block := s.block + 1, ready := ws })
    | [] => (0, s)

instance : WordSource ChaCha := ⟨next⟩

/-- `n` key words from a linear congruential generator, whose states are permuted for output. -/
def keyWords : Nat → UInt64 → List UInt32
  | 0, _ => []
  | n + 1, state =>
    let state := state * 6364136223846793005 + 11634580027462260723
    let word := (((state >>> 18) ^^^ state) >>> 27).toUInt32
    rotateRight word (state >>> 59).toUInt32 :: keyWords n state

/-- The cipher with the key of a seed, at the beginning of its first block. -/
def ofSeed (seed : UInt64) : ChaCha :=
  let ws := keyWords 8 seed
  ⟨Vector.ofFn fun i => ws.getD i.val 0, 0, []⟩

end ChaCha

end ScenarioSampling
