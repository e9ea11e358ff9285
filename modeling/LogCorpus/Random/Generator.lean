/-
A seeded generator of random words.

The generator is the ChaCha stream cipher with twelve rounds: a key made from
the seed, a block counter from zero and a zero nonce.  The words of its blocks
come out in order.
-/

namespace LogCorpus

/-- One column of the cipher's four by four matrix of words. -/
structure Column where
  a : UInt32
  b : UInt32
  c : UInt32
  d : UInt32
deriving Repr, DecidableEq

/-- Rotate a word to the left. -/
def rotateLeft (word count : UInt32) : UInt32 :=
  word <<< count ||| word >>> (32 - count)

/-- Stir one column. -/
def Column.stir (column : Column) : Column :=
  let a := column.a + column.b
  let d := rotateLeft (column.d ^^^ a) 16
  let c := column.c + d
  let b := rotateLeft (column.b ^^^ c) 12
  let a := a + b
  let d := rotateLeft (d ^^^ a) 8
  let c := c + d
  let b := rotateLeft (b ^^^ c) 7
  ⟨a, b, c, d⟩

/-- The cipher's matrix, by columns. -/
structure Matrix where
  first : Column
  second : Column
  third : Column
  fourth : Column
deriving Repr, DecidableEq

namespace Matrix

/-- Apply a function to every column. -/
def map (change : Column → Column) (matrix : Matrix) : Matrix :=
  ⟨change matrix.first, change matrix.second, change matrix.third,
    change matrix.fourth⟩

/-- Move the diagonals into the columns. -/
def skew (m : Matrix) : Matrix :=
  ⟨⟨m.first.a, m.second.b, m.third.c, m.fourth.d⟩,
    ⟨m.second.a, m.third.b, m.fourth.c, m.first.d⟩,
    ⟨m.third.a, m.fourth.b, m.first.c, m.second.d⟩,
    ⟨m.fourth.a, m.first.b, m.second.c, m.third.d⟩⟩

/-- Move the columns back into the diagonals. -/
def unskew (m : Matrix) : Matrix :=
  ⟨⟨m.first.a, m.fourth.b, m.third.c, m.second.d⟩,
    ⟨m.second.a, m.first.b, m.fourth.c, m.third.d⟩,
    ⟨m.third.a, m.second.b, m.first.c, m.fourth.d⟩,
    ⟨m.fourth.a, m.third.b, m.second.c, m.first.d⟩⟩

/-- Two rounds: stir the columns, then the diagonals. -/
def doubleRound (matrix : Matrix) : Matrix :=
  ((matrix.map Column.stir).skew.map Column.stir).unskew

/-- As many double rounds as told. -/
def doubleRounds : Nat → Matrix → Matrix
  | 0, matrix => matrix
  | count + 1, matrix => doubleRounds count matrix.doubleRound

/-- The words of a matrix, row by row. -/
def words (m : Matrix) : List UInt32 :=
  [m.first.a, m.second.a, m.third.a, m.fourth.a,
    m.first.b, m.second.b, m.third.b, m.fourth.b,
    m.first.c, m.second.c, m.third.c, m.fourth.c,
    m.first.d, m.second.d, m.third.d, m.fourth.d]

end Matrix

/-- The state of a generator: the matrix of the next block without its counter,
the counter, and the words of the current block that are left. -/
structure Generator where
  start : Matrix
  counter : UInt64
  pending : List UInt32
deriving Repr, DecidableEq

namespace Generator

/-- The next state of the congruential sequence that spreads a seed. -/
def nextSeed (state : UInt64) : UInt64 :=
  state * 6364136223846793005 + 11634580027462260723

/-- The word of a state of that sequence: a shift and a rotation, both by bits
of the state. -/
def seedWord (state : UInt64) : UInt32 :=
  let word := (((state >>> 18) ^^^ state) >>> 27).toUInt32
  let count := (state >>> 59).toUInt32
  word >>> count ||| word <<< ((32 - count) % 32)

/-- The first `count` words that a seed spreads to. -/
def seedWords : Nat → UInt64 → List UInt32
  | 0, _ => []
  | count + 1, state =>
      seedWord (nextSeed state) :: seedWords count (nextSeed state)

/-- The matrix of a key: four constants on top, the key below, zeros last. -/
def keyMatrix (key : List UInt32) : Matrix :=
  let word (place : Nat) : UInt32 := key.getD place 0
  ⟨⟨0x61707865, word 0, word 4, 0⟩, ⟨0x3320646e, word 1, word 5, 0⟩,
    ⟨0x79622d32, word 2, word 6, 0⟩, ⟨0x6b206574, word 3, word 7, 0⟩⟩

/-- The generator of a seed. -/
def ofSeed (seed : UInt64) : Generator :=
  ⟨keyMatrix (seedWords 8 seed), 0, []⟩

/-- The words of the block with this counter. -/
def block (start : Matrix) (counter : UInt64) : List UInt32 :=
  let input : Matrix :=
    { start with
      first.d := counter.toUInt32
      second.d := (counter >>> 32).toUInt32 }
  List.zipWith (· + ·) (input.doubleRounds 6).words input.words

/-- The next word. -/
def next (generator : Generator) : UInt32 × Generator :=
  match generator.pending with
  | word :: pending => (word, { generator with pending })
  | [] =>
      let words := block generator.start generator.counter
      (words.headD 0,
        { generator with
          counter := generator.counter + 1
          pending := words.tail })

end Generator

end LogCorpus
