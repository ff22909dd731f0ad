/-!
# Reproducible random numbers

A seed fixes an endless sequence of 32-bit words: the key stream of the ChaCha cipher with twelve
rounds, a zero nonce and a block counter from zero. The key comes from the seed through eight steps
of a permuted congruential generator. On top of the words stand uniform draws below a bound, which
refuse the words that would make some results more likely than others.
-/

namespace Volley

namespace Random

/-- Four words, one row of the cipher's state. -/
structure Row where
  a : UInt32
  b : UInt32
  c : UInt32
  d : UInt32
  deriving DecidableEq, Repr, Inhabited

namespace Row

/-- Applies `f` to the words of two rows, lane by lane. -/
def zipWith (f : UInt32 → UInt32 → UInt32) (x y : Row) : Row :=
  ⟨f x.a y.a, f x.b y.b, f x.c y.c, f x.d y.d⟩

/-- Applies `f` to every word. -/
def map (f : UInt32 → UInt32) (x : Row) : Row :=
  ⟨f x.a, f x.b, f x.c, f x.d⟩

/-- Moves every word one lane to the left, the first to the end. -/
def turn (x : Row) : Row :=
  ⟨x.b, x.c, x.d, x.a⟩

/-- The words of a row in order. -/
def toList (x : Row) : List UInt32 :=
  [x.a, x.b, x.c, x.d]

end Row

/-- Rotates a word to the left, for `0 < count < 32`. -/
def rotateLeft (count word : UInt32) : UInt32 :=
  (word <<< count) ||| (word >>> (32 - count))

/-- The sixteen words that the cipher mixes, as four rows. -/
structure Block where
  r0 : Row
  r1 : Row
  r2 : Row
  r3 : Row
  deriving DecidableEq, Repr, Inhabited

namespace Block

/-- Adds `y` to `x`, mixes the sum into `z` and rotates the result. -/
def mix (count : UInt32) (x y z : Row) : Row × Row :=
  let sum := x.zipWith (· + ·) y
  (sum, (z.zipWith (· ^^^ ·) sum).map (rotateLeft count))

/-- The quarter round on all four columns at once: four times `mix`. -/
def columns (s : Block) : Block :=
  let (r0, r3) := mix 16 s.r0 s.r1 s.r3
  let (r2, r1) := mix 12 s.r2 r3 s.r1
  let (r0, r3) := mix 8 r0 r1 r3
  let (r2, r1) := mix 7 r2 r3 r1
  ⟨r0, r1, r2, r3⟩

/-- The quarter round on all four diagonals at once: `columns` of the rows with each `turn`ed by its
number. -/
def diagonals (s : Block) : Block :=
  let t := columns ⟨s.r0, s.r1.turn, s.r2.turn.turn, s.r3.turn.turn.turn⟩
  ⟨t.r0, t.r1.turn.turn.turn, t.r2.turn.turn, t.r3.turn⟩

/-- A number of double rounds, each `columns` and then `diagonals`. -/
def rounds : Nat → Block → Block
  | 0, s => s
  | n + 1, s => rounds n (diagonals (columns s))

/-- The sixteen words of the key stream that an input block gives: its own words added to those of
six `rounds`. -/
def keyStream (s : Block) : List UInt32 :=
  let t := rounds 6 s
  (s.r0.zipWith (· + ·) t.r0).toList ++ (s.r1.zipWith (· + ·) t.r1).toList ++
    (s.r2.zipWith (· + ·) t.r2).toList ++ (s.r3.zipWith (· + ·) t.r3).toList

end Block

/-- The row that opens every input block. -/
def constants : Row :=
  ⟨0x61707865, 0x3320646E, 0x79622D32, 0x6B206574⟩

end Random

/-- A place in the word sequence of a key. -/
structure Random where
  /-- The first half of the key. -/
  low : Random.Row
  /-- The second half of the key. -/
  high : Random.Row
  /-- The number of the next block. -/
  counter : UInt64
  /-- The words of the last block that have not been drawn. -/
  pending : List UInt32
  deriving DecidableEq, Repr, Inhabited

namespace Random

/-- One step of the generator that expands a seed: the next `state`, and a word of the key. -/
def expand (state : UInt64) : UInt64 × UInt32 :=
  let next := state * 6364136223846793005 + 11634580027462260723
  let word := (((next >>> 18) ^^^ next) >>> 27).toUInt32
  let turn := (next >>> 59).toUInt32
  (next, if turn = 0 then word else rotateLeft (32 - turn) word)

/-- The next four words of the key, by `expand`. -/
def expandRow (state : UInt64) : UInt64 × Row :=
  let (s, a) := expand state
  let (s, b) := expand s
  let (s, c) := expand s
  let (s, d) := expand s
  (s, ⟨a, b, c, d⟩)

/-- The start of the sequence that `seed` fixes, with its key by `expandRow`. -/
def ofSeed (seed : UInt64) : Random :=
  let (s, low) := expandRow seed
  let (_, high) := expandRow s
  { low, high, counter := 0, pending := [] }

/-- The `keyStream` of the block number `counter`. -/
def block (low high : Row) (counter : UInt64) : List UInt32 :=
  Block.keyStream ⟨constants, low, high, ⟨counter.toUInt32, (counter >>> 32).toUInt32, 0, 0⟩⟩

/-- The next word of the sequence, from `pending` or from the next `block`. -/
def next32 (r : Random) : UInt32 × Random :=
  match r.pending with
  | word :: rest => (word, { r with pending := rest })
  | [] =>
    match block r.low r.high r.counter with
    | word :: rest => (word, { r with counter := r.counter + 1, pending := rest })
    | [] => (0, r)

/-- The next two words of `next32` as one, the low half first. -/
def next64 (r : Random) : UInt64 × Random :=
  let (low, r) := r.next32
  let (high, r) := r.next32
  (high.toUInt64 <<< 32 ||| low.toUInt64, r)

/-- The largest low half of a product that is accepted when numbers below `bound` are drawn from
words of `width` bits: one less than the largest multiple of `bound` by a power of two that the
width can hold. -/
def zone (width bound : Nat) : Nat :=
  bound <<< (width - 1 - bound.log2) - 1

/-- Draws words until one is accepted. The word times `bound` has the result in its high half; words
whose product has a low half beyond the `zone` are refused. Less than half of all words are refused,
so the limit on the number of `refusals` never comes to bear. -/
def below (width bound : Nat) (draw : Random → Nat × Random) :
    (refusals : Nat) → Random → Nat × Random
  | 0, r =>
    let (word, r) := draw r
    ((word * bound) >>> width, r)
  | refusals + 1, r =>
    let (word, r) := draw r
    if word * bound % (1 <<< width) ≤ zone width bound then ((word * bound) >>> width, r)
    else below width bound draw refusals r

/-- A number below `bound`, for `0 < bound < 2 ^ 32`, from words of 32 bits. -/
def below32 (bound : Nat) (r : Random) : Nat × Random :=
  below 32 bound (fun r => let (word, r) := r.next32; (word.toNat, r)) 1024 r

/-- A number below `bound`, for `0 < bound < 2 ^ 64`, from words of 64 bits. -/
def below64 (bound : Nat) (r : Random) : Nat × Random :=
  below 64 bound (fun r => let (word, r) := r.next64; (word.toNat, r)) 1024 r

/-- A member of `xs`, each place as likely as any other, by `below32`. Nothing is drawn for an empty
list. -/
def choose? {α : Type} (xs : List α) (r : Random) : Option α × Random :=
  if xs.isEmpty then (none, r)
  else
    let (index, r) := r.below32 xs.length
    (xs[index]?, r)

end Random

end Volley
