/-
Random order.

`shuffle` permutes a list with words from any source: from the last place down
to the second, each item changes places with a random one not after it.  A random
number is drawn by rejecting words until one is fair.  `Draws` and `Shuffles` are
these loops without a limit; `shuffle` gives up a draw after `maxDraws` words, which
a source that `Answers` never needs.
-/

namespace LogCorpus

/-- A source of random words with a state. -/
abbrev WordSource (σ : Type) := σ → UInt32 × σ

/-- The most words that are drawn for one number.  A word is fair with a chance
above one half; a draw that meets none among so many yields zero. -/
def maxDraws : Nat :=
  256

/-- The largest low half of a product that is accepted: one less than the bound
shifted to the left until its high bit is set. -/
def acceptLimit (bound : Nat) : Nat :=
  (bound <<< (31 - bound.log2)) - 1

/-- Is the word accepted when a number below the bound is drawn? -/
def isFair (bound : Nat) (word : UInt32) : Bool :=
  word.toNat * bound % UInt32.size ≤ acceptLimit bound

/-- The number below the bound that a word stands for: the high half of the product
of both. -/
def numberBelow (bound : Nat) (word : UInt32) : Nat :=
  word.toNat * bound / UInt32.size

/-- A number below a positive bound of at most 32 bits, from the first fair word. -/
def drawBelow (source : WordSource σ) (bound : Nat) : Nat → σ → Nat × σ
  | 0, state => (0, state)
  | draws + 1, state =>
      let (word, state) := source state
      if isFair bound word then (numberBelow bound word, state)
      else drawBelow source bound draws state

/-- Exchange the items at the places from `place` down to one, each with a
random one not after it. -/
def shuffleDown (source : WordSource σ) : Nat → Array α → σ → Array α × σ
  | 0, items, state => (items, state)
  | place + 1, items, state =>
      let (other, state) := drawBelow source (place + 2) maxDraws state
      shuffleDown source place (items.swapIfInBounds (place + 1) other) state

/-- The items in random order. -/
def shuffle (source : WordSource σ) (items : List α) (state : σ) :
    List α × σ :=
  let (items, state) :=
    shuffleDown source (items.length - 1) items.toArray state
  (items.toList, state)

/-- A number below the bound is drawn, however many words are rejected before. -/
inductive Draws (source : WordSource σ) (bound : Nat) : σ → Nat → σ → Prop
  | accepted {state next : σ} {word : UInt32} (hword : source state = (word, next))
      (hfair : isFair bound word = true) :
      Draws source bound state (numberBelow bound word) next
  | rejected {state next last : σ} {word : UInt32} {number : Nat}
      (hword : source state = (word, next)) (hunfair : isFair bound word = false)
      (hrest : Draws source bound next number last) :
      Draws source bound state number last

/-- The exchanges of `shuffleDown` with draws that have no limit. -/
inductive Shuffles (source : WordSource σ) :
    Nat → Array α → σ → Array α → σ → Prop
  | done (items : Array α) (state : σ) : Shuffles source 0 items state items state
  | exchange {place other : Nat} {items after : Array α} {state next last : σ}
      (hdraws : Draws source (place + 2) state other next)
      (hrest : Shuffles source place (items.swapIfInBounds (place + 1) other) next after
        last) :
      Shuffles source (place + 1) items state after last

/-- The state of a source after so many words. -/
def afterWords (source : WordSource σ) : Nat → σ → σ
  | 0, state => state
  | count + 1, state => afterWords source count (source state).2

/-- The source gives a fair word for every bound before the draws run out, in whatever
state it is. -/
def Answers (source : WordSource σ) : Prop :=
  ∀ bound, 0 < bound → bound < UInt32.size → ∀ state, ∃ rejected < maxDraws,
    isFair bound (source (afterWords source rejected state)).1

end LogCorpus
