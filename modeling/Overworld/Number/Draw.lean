import Overworld.Number.Single

set_option autoImplicit false

/-!
Reproducible random draws. A seed is stretched to a key, the key and a block number give sixteen
words by twelve rounds of mixing, and the words of blocks 0, 1, 2, … are the draws in order. A
generator is therefore its key and the count of words drawn.
-/

namespace Overworld

structure Generator where
  key : Vector UInt32 8
  drawn : Nat
deriving DecidableEq

namespace Generator

/-- One step of the sequence that stretches a seed: multiply, add, modulo the word size. -/
def stretch (state : UInt64) : UInt64 :=
  state * 6364136223846793005 + 11634580027462260723

def rotateRight (word count : UInt32) : UInt32 :=
  if count = 0 then word else word >>> count ||| word <<< (32 - count)

def rotateLeft (word count : UInt32) : UInt32 := word <<< count ||| word >>> (32 - count)

/-- The key word that a stretched state yields: its high bits folded, then turned by its top five. -/
def keyWord (state : UInt64) : UInt32 :=
  rotateRight ((state >>> 18 ^^^ state) >>> 27).toUInt32 (state >>> 59).toUInt32

def stretched (seed : UInt64) : Nat → UInt64
  | 0 => stretch seed
  | n + 1 => stretch (stretched seed n)

def ofSeed (seed : UInt64) : Generator :=
  ⟨Vector.ofFn fun i : Fin 8 => keyWord (stretched seed i), 0⟩

abbrev Block := Vector UInt32 16

/-- Mixes four words of a block. -/
def quarterRound (s : Block) (a b c d : Fin 16) : Block :=
  let s := s.set a (s[a] + s[b])
  let s := s.set d (rotateLeft (s[d] ^^^ s[a]) 16)
  let s := s.set c (s[c] + s[d])
  let s := s.set b (rotateLeft (s[b] ^^^ s[c]) 12)
  let s := s.set a (s[a] + s[b])
  let s := s.set d (rotateLeft (s[d] ^^^ s[a]) 8)
  let s := s.set c (s[c] + s[d])
  s.set b (rotateLeft (s[b] ^^^ s[c]) 7)

/-- A round over the columns and a round over the diagonals. -/
def doubleRound (s : Block) : Block :=
  let s := quarterRound s 0 4 8 12
  let s := quarterRound s 1 5 9 13
  let s := quarterRound s 2 6 10 14
  let s := quarterRound s 3 7 11 15
  let s := quarterRound s 0 5 10 15
  let s := quarterRound s 1 6 11 12
  let s := quarterRound s 2 7 8 13
  quarterRound s 3 4 9 14

/-- Constants, key, block number and zeros, before mixing. -/
def initial (key : Vector UInt32 8) (number : UInt64) : Block :=
  #v[0x61707865, 0x3320646e, 0x79622d32, 0x6b206574,
    key[0], key[1], key[2], key[3], key[4], key[5], key[6], key[7],
    number.toUInt32, (number >>> 32).toUInt32, 0, 0]

def block (key : Vector UInt32 8) (number : UInt64) : Block :=
  let start := initial key number
  let mixed := (List.range 6).foldl (fun s _ => doubleRound s) start
  Vector.zipWith (· + ·) mixed start

def word (g : Generator) : UInt32 × Generator :=
  let words := block g.key (g.drawn / 16).toUInt64
  (words.get ⟨g.drawn % 16, Nat.mod_lt _ (by decide)⟩, { g with drawn := g.drawn + 1 })

/-- Two words, the low one drawn first. -/
def wide (g : Generator) : UInt64 × Generator :=
  let (low, g) := g.word
  let (high, g) := g.word
  (low.toUInt64 ||| high.toUInt64 <<< 32, g)

/-- A fair choice. -/
def coin (g : Generator) : Bool × Generator :=
  let (draw, g) := g.wide
  (draw < 0x8000000000000000, g)

/-- A number of the unit interval from the high bits of a word. -/
def fraction (word : UInt32) : Single := ⟨word >>> 9 ||| 0x3f800000⟩ - .one

/-- A number from `low` up to but not `high`. A draw that rounds up to `high` is made again, at
most `tries` times; for the ranges the world draws from none does. -/
def between (low high : Single) : Nat → Generator → Single × Generator
  | 0, g => (low, g)
  | tries + 1, g =>
    let (word, g) := g.word
    let result := fraction word * (high - low) + low
    if result < high then (result, g) else between low high tries g

end Generator

end Overworld
