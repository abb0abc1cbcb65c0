import TapeBreeder.Random.Source

/-!
# The ChaCha stream as a random source

The source of seeded searches is the stream of the ChaCha block function with twelve rounds, cut
into words of 32 bits. A seed is stretched to a key by a linear congruential generator whose
state is permuted for output.

Draws below a bound multiply a word by the bound and take the high half; a word whose low half
shows it to belong to the incomplete last share is rejected and drawn again. Rejection has
probability below one half, so the bound on repetitions is never met in practice; it only makes
the draw a total function, and keeps it in range even then.

* `ChaCha.block` — the block function.
* `ChaCha.nextWord` — the stream.
* `ChaCha.below64`, `ChaCha.below32`, `ChaCha.belowTotal` — the draws below a bound.

All draws lie in the requested ranges, so the stream is a lawful source.
-/

namespace TapeBreeder

namespace ChaCha

/-! ## The block function -/

/-- Four words, a row of the state. -/
structure Row where
  a : UInt32
  b : UInt32
  c : UInt32
  d : UInt32
deriving DecidableEq, Repr

namespace Row

/-- Apply an operation to the words of two rows, place by place. -/
@[inline] def zipWith (f : UInt32 → UInt32 → UInt32) (x y : Row) : Row :=
  ⟨f x.a y.a, f x.b y.b, f x.c y.c, f x.d y.d⟩

/-- Apply an operation to the words of a row. -/
@[inline] def map (f : UInt32 → UInt32) (x : Row) : Row :=
  ⟨f x.a, f x.b, f x.c, f x.d⟩

instance : Add Row :=
  ⟨zipWith (· + ·)⟩

instance : XorOp Row :=
  ⟨zipWith (· ^^^ ·)⟩

/-- Move the words of a row to the left, around the end. -/
@[inline] def turn (x : Row) : Row :=
  ⟨x.b, x.c, x.d, x.a⟩

/-- The words of a row. -/
def words (x : Row) : List UInt32 :=
  [x.a, x.b, x.c, x.d]

end Row

/-- A square of sixteen words, by its rows. -/
structure Square where
  top : Row
  upper : Row
  lower : Row
  bottom : Row
deriving DecidableEq, Repr

/-- A word turned to the left by `n` bits, for `0 < n < 32`. -/
@[inline] def rotateLeft (n : UInt32) (word : UInt32) : UInt32 :=
  (word <<< n) ||| (word >>> (32 - n))

namespace Square

/-- The quarter round on each of the four columns. -/
def mixColumns (s : Square) : Square :=
  let a := s.top + s.upper
  let d := (s.bottom ^^^ a).map (rotateLeft 16)
  let c := s.lower + d
  let b := (s.upper ^^^ c).map (rotateLeft 12)
  let a := a + b
  let d := (d ^^^ a).map (rotateLeft 8)
  let c := c + d
  let b := (b ^^^ c).map (rotateLeft 7)
  ⟨a, b, c, d⟩

/-- A round on the columns and a round on the diagonals, which are the columns after the rows
have been turned against each other. -/
def doubleRound (s : Square) : Square :=
  let s := s.mixColumns
  let s := mixColumns ⟨s.top, s.upper.turn, s.lower.turn.turn, s.bottom.turn.turn.turn⟩
  ⟨s.top, s.upper.turn.turn.turn, s.lower.turn.turn, s.bottom.turn⟩

/-- Several double rounds. -/
def doubleRounds : Nat → Square → Square
  | 0, s => s
  | n + 1, s => doubleRounds n s.doubleRound

/-- The words of a square, row by row. -/
def words (s : Square) : List UInt32 :=
  s.top.words ++ s.upper.words ++ s.lower.words ++ s.bottom.words

end Square

/-- The constant first row. -/
def constants : Row :=
  ⟨0x61707865, 0x3320646e, 0x79622d32, 0x6b206574⟩

/-- A key of eight words. -/
structure Key where
  front : Row
  back : Row
deriving DecidableEq, Repr

/-- The sixteen words of the block with number `counter`: the square after twelve rounds, plus
the square before them. -/
def block (key : Key) (counter : UInt64) : List UInt32 :=
  let before : Square :=
    ⟨constants, key.front, key.back, ⟨counter.toUInt32, (counter >>> 32).toUInt32, 0, 0⟩⟩
  let after := before.doubleRounds 6
  (Square.mk (after.top + before.top) (after.upper + before.upper) (after.lower + before.lower)
    (after.bottom + before.bottom)).words

/-! ## Seeds -/

/-- The next state of the generator that stretches a seed. -/
def stretch (state : UInt64) : UInt64 :=
  state * 6364136223846793005 + 11634580027462260723

/-- A word turned to the right by `n` bits, for `n < 32`. -/
def rotateRight (n : UInt32) (word : UInt32) : UInt32 :=
  (word >>> n) ||| (word <<< ((32 - n) % 32))

/-- The output of a state of the generator that stretches a seed. -/
def permute (state : UInt64) : UInt32 :=
  rotateRight (state >>> 59).toUInt32 ((((state >>> 18) ^^^ state) >>> 27).toUInt32)

/-- A row of a key, and the state after it. -/
def keyRow (state : UInt64) : Row × UInt64 :=
  let s₁ := stretch state
  let s₂ := stretch s₁
  let s₃ := stretch s₂
  let s₄ := stretch s₃
  (⟨permute s₁, permute s₂, permute s₃, permute s₄⟩, s₄)

/-- The key of a seed. -/
def keyOfSeed (seed : UInt64) : Key :=
  let (front, state) := keyRow seed
  ⟨front, (keyRow state).1⟩

end ChaCha

/-! ## The stream -/

/-- A position in the stream of a key: the words that are left of the last block taken, and the
number of the next block. -/
structure ChaCha where
  key : ChaCha.Key
  rest : List UInt32
  counter : UInt64
deriving DecidableEq, Repr

namespace ChaCha

/-- The beginning of the stream of a seed. -/
def ofSeed (seed : UInt64) : ChaCha :=
  ⟨keyOfSeed seed, [], 0⟩

/-- The next word of the stream. -/
def nextWord : StateM ChaCha UInt32 := fun s =>
  match s.rest with
  | word :: rest => (word, { s with rest })
  | [] =>
    match block s.key s.counter with
    | word :: rest => (word, { s with rest, counter := s.counter + 1 })
    | [] => (0, s)

/-- Two words of the stream as a word of 64 bits, the first one as its low half. -/
def nextPair : StateM ChaCha UInt64 := do
  let low ← nextWord
  let high ← nextWord
  return high.toUInt64 <<< 32 ||| low.toUInt64

/-! ## Draws -/

/-- How often a draw is repeated at most. -/
def retryLimit : Nat :=
  1000

/-- Multiply draws of words below `size` by `n` until the low half of a product is at most `zone`,
and return its high half; the last draw is taken as it is. -/
def scaled (draw : StateM ChaCha Nat) (size n zone : Nat) : Nat → StateM ChaCha Nat
  | 0 => do
    let word ← draw
    return word * n / size
  | retries + 1 => do
    let word ← draw
    let product := word * n
    if product % size ≤ zone then return product / size
    else scaled draw size n zone retries

/-- The largest number of `bits` bits of the form `n * 2 ^ k - 1`. -/
def shiftedZone (bits n : Nat) : Nat :=
  n <<< (bits - 1 - n.log2) - 1

/-- The largest number below `size` of the form `n * k - 1`. -/
def exactZone (size n : Nat) : Nat :=
  size - 1 - (size - n) % n

/-- A number below `n`, from 64-bit words. -/
def below64 (n : Nat) : StateM ChaCha Nat :=
  scaled (UInt64.toNat <$> nextPair) UInt64.size n (shiftedZone 64 n) retryLimit

/-- A number below `n`, from 32-bit words. -/
def below32 (n : Nat) : StateM ChaCha Nat :=
  scaled (UInt32.toNat <$> nextWord) UInt32.size n (shiftedZone 32 n) retryLimit

/-- A number below a total of weights, from 32-bit words, rejecting as few words as possible. -/
def belowTotal (n : Nat) : StateM ChaCha Nat :=
  scaled (UInt32.toNat <$> nextWord) UInt32.size n (exactZone UInt32.size n) retryLimit

/-- A fraction: the upper bits of a 64-bit word. -/
def nextFraction : StateM ChaCha Nat := do
  let word ← nextPair
  return word.toNat / 2048

/-- The draws of a seeded search. -/
instance : SeededSource ChaCha where
  ofSeed := ofSeed
  below := below64
  place := below32
  weight := belowTotal
  fraction := nextFraction
  seed := nextPair

/-! ## Ranges -/

/-- The high half of the product of a word and a bound is below the bound. -/
theorem mul_div_lt {word size n : Nat} (hn : 0 < n) (hword : word < size) :
    word * n / size < n := by
  rw [Nat.div_lt_iff_lt_mul (Nat.zero_lt_of_lt hword), Nat.mul_comm n]
  exact Nat.mul_lt_mul_of_pos_right hword hn

/-- A scaled draw lies below its bound, whatever is rejected. -/
theorem scaled_lt {draw : StateM ChaCha Nat} {size n zone : Nat} (hn : 0 < n)
    (hdraw : ∀ s, (draw s).1 < size) (retries : Nat) (s : ChaCha) :
    (scaled draw size n zone retries s).1 < n := by
  induction retries generalizing s with
  | zero => exact mul_div_lt hn (hdraw s)
  | succ retries ih =>
    have hword := hdraw s
    simp only [scaled, bind, StateT.bind]
    generalize draw s = drawn at hword ⊢
    obtain ⟨word, t⟩ := drawn
    by_cases accepted : word * n % size ≤ zone
    · simp only [accepted, ↓reduceIte]
      exact mul_div_lt hn hword
    · simp only [accepted, ↓reduceIte]
      exact ih t

theorem below64_lt {n : Nat} (hn : 0 < n) (s : ChaCha) : (below64 n s).1 < n :=
  scaled_lt hn (fun t => (nextPair t).1.toNat_lt_size) retryLimit s

theorem below32_lt {n : Nat} (hn : 0 < n) (s : ChaCha) : (below32 n s).1 < n :=
  scaled_lt hn (fun t => (nextWord t).1.toNat_lt_size) retryLimit s

theorem belowTotal_lt {n : Nat} (hn : 0 < n) (s : ChaCha) : (belowTotal n s).1 < n :=
  scaled_lt hn (fun t => (nextWord t).1.toNat_lt_size) retryLimit s

theorem nextFraction_lt (s : ChaCha) : (nextFraction s).1 < fractionSize :=
  Nat.div_lt_of_lt_mul (nextPair s).1.toNat_lt_size

instance : LawfulSource ChaCha where
  below_lt _ s hn := below64_lt hn s
  place_lt _ s hn := below32_lt hn s
  weight_lt _ s hn _ := belowTotal_lt hn s
  fraction_lt := nextFraction_lt

end ChaCha

end TapeBreeder
