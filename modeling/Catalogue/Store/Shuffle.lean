/-! Shuffled lists of ordinals.  A seed starts a generator of 32-bit words, the Mersenne twister
with 624 words of state; the words pick, from the last place down to the second, the place with
which each place is exchanged. -/

namespace Catalogue.Shuffle

/-- The number of words in the state of a generator. -/
def stateSize : Nat := 624

/-- A generator: its words, and the place of the next one to be given out. -/
structure Generator where
  words : Array UInt32
  next : Nat

/-- The word at a place; places count round the state. -/
def wordAt (words : Array UInt32) (i : Nat) : UInt32 := words.getD (i % stateSize) 0

/-- A word from the word before it, in the first filling of a state. -/
def spread (factor previous : UInt32) : UInt32 := (previous ^^^ (previous >>> 30)) * factor

/-- The state that a single number fills. -/
def fill (start : UInt32) : Array UInt32 :=
  (List.range (stateSize - 1)).foldl (fun words i =>
    words.push (spread 1812433253 (wordAt words i) + .ofNat (i + 1))) #[start]

/-- The 32-bit words of a number, the least significant first; zero has one. -/
def keyWords (n : Nat) : List UInt32 :=
  if n < 4294967296 then [.ofNat n] else .ofNat (n % 4294967296) :: keyWords (n / 4294967296)
termination_by n
decreasing_by omega

/-- Writes the word for place `i` and, at the end of the state, repeats it at the front; the next
place. -/
def write (words : Array UInt32) (i : Nat) (word : UInt32) : Array UInt32 × Nat :=
  let words := words.setIfInBounds i word
  if i + 1 < stateSize then (words, i + 1) else (words.setIfInBounds 0 word, 1)

/-- Mixes the words of a key into a state. -/
def mixKey (key : Array UInt32) (words : Array UInt32) : Array UInt32 × Nat :=
  (List.range (max stateSize key.size)).foldl (fun (words, i) step =>
    let j := step % key.size
    write words i ((wordAt words i ^^^ spread 1664525 (wordAt words (i - 1)))
      + key.getD j 0 + .ofNat j)) (words, 1)

/-- Mixes a state with itself. -/
def mixPlaces (words : Array UInt32) (start : Nat) : Array UInt32 :=
  ((List.range (stateSize - 1)).foldl (fun (words, i) _ =>
    write words i ((wordAt words i ^^^ spread 1566083941 (wordAt words (i - 1))) - .ofNat i))
    (words, start)).1

/-- The generator that a seed starts. -/
def Generator.ofSeed (seed : Nat) : Generator :=
  let (words, i) := mixKey (keyWords seed).toArray (fill 19650218)
  ⟨(mixPlaces words i).setIfInBounds 0 0x80000000, stateSize⟩

/-- The word that takes the place of word `i` in the next round. -/
def twist (words : Array UInt32) (i : Nat) : UInt32 :=
  let y := (wordAt words i &&& 0x80000000) ||| (wordAt words (i + 1) &&& 0x7fffffff)
  wordAt words (i + 397) ^^^ (y >>> 1) ^^^ (if y &&& 1 = 0 then 0 else 0x9908b0df)

/-- A whole round of words. -/
def nextRound (words : Array UInt32) : Array UInt32 :=
  (List.range stateSize).foldl (fun words i => words.setIfInBounds i (twist words i)) words

/-- A word as it is given out. -/
def temper (y : UInt32) : UInt32 :=
  let y := y ^^^ (y >>> 11)
  let y := y ^^^ ((y <<< 7) &&& 0x9d2c5680)
  let y := y ^^^ ((y <<< 15) &&& 0xefc60000)
  y ^^^ (y >>> 18)

/-- The next word, and the generator after it. -/
def Generator.word (g : Generator) : UInt32 × Generator :=
  let g := if g.next < stateSize then g else ⟨nextRound g.words, 0⟩
  (temper (wordAt g.words g.next), { g with next := g.next + 1 })

/-- How many words are tried for one number. -/
def maxTries : Nat := 10000

/-- A number below `bound` from the leading bits of the next word, which is passed over where the
bits are not below `bound`; zero after `tries` words. -/
def Generator.below (bound : Nat) (g : Generator) : (tries : Nat) → Nat × Generator
  | 0 => (0, g)
  | tries + 1 =>
    let (word, g) := g.word
    let n := word.toNat / Nat.pow 2 (31 - bound.log2)
    if n < bound then (n, g) else g.below bound tries

/-- Exchanges each place from `i` down to the second with a place up to it. -/
def exchange : (i : Nat) → Generator → Array Nat → Array Nat
  | 0, _, ordinals => ordinals
  | i + 1, g, ordinals =>
    let (j, g) := g.below (i + 2) maxTries
    exchange i g (ordinals.swapIfInBounds (i + 1) j)

/-- The numbers below `count` in the order of a seed. -/
def order (seed count : Nat) : List Nat :=
  (exchange (count - 1) (.ofSeed seed) (Array.range count)).toList

end Catalogue.Shuffle
