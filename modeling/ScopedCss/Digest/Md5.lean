/-!
# The MD5 digest

The message is padded to blocks of sixteen 32-bit words in little-endian order, and every block is
mixed into a state of four words by sixty-four steps.  The digest is the final state as bytes.
-/

namespace ScopedCss.Md5

/-- The four words that are carried from block to block. -/
structure State where
  a : UInt32
  b : UInt32
  c : UInt32
  d : UInt32
deriving Repr, DecidableEq

/-- The state before the first block. -/
def State.initial : State := ⟨0x67452301, 0xefcdab89, 0x98badcfe, 0x10325476⟩

/-- The constants of the sixty-four steps: `⌊2³² · |sin (i + 1)|⌋`. -/
def constants : Array UInt32 := #[
  0xd76aa478, 0xe8c7b756, 0x242070db, 0xc1bdceee, 0xf57c0faf, 0x4787c62a, 0xa8304613, 0xfd469501,
  0x698098d8, 0x8b44f7af, 0xffff5bb1, 0x895cd7be, 0x6b901122, 0xfd987193, 0xa679438e, 0x49b40821,
  0xf61e2562, 0xc040b340, 0x265e5a51, 0xe9b6c7aa, 0xd62f105d, 0x02441453, 0xd8a1e681, 0xe7d3fbc8,
  0x21e1cde6, 0xc33707d6, 0xf4d50d87, 0x455a14ed, 0xa9e3e905, 0xfcefa3f8, 0x676f02d9, 0x8d2a4c8a,
  0xfffa3942, 0x8771f681, 0x6d9d6122, 0xfde5380c, 0xa4beea44, 0x4bdecfa9, 0xf6bb4b60, 0xbebfbc70,
  0x289b7ec6, 0xeaa127fa, 0xd4ef3085, 0x04881d05, 0xd9d4d039, 0xe6db99e5, 0x1fa27cf8, 0xc4ac5665,
  0xf4292244, 0x432aff97, 0xab9423a7, 0xfc93a039, 0x655b59c3, 0x8f0ccc92, 0xffeff47d, 0x85845dd1,
  0x6fa87e4f, 0xfe2ce6e0, 0xa3014314, 0x4e0811a1, 0xf7537e82, 0xbd3af235, 0x2ad7d2bb, 0xeb86d391]

/-- The rotations of the four rounds, four of each. -/
def rotations : Array UInt32 := #[7, 12, 17, 22, 5, 9, 14, 20, 4, 11, 16, 23, 6, 10, 15, 21]

/-- Rotates a word to the left by `count` bits, for `count` between 1 and 31. -/
def rotateLeft (word count : UInt32) : UInt32 :=
  (word <<< count) ||| (word >>> (32 - count))

/-- The mixing function of the step and the word of the block that it uses. -/
def mix (state : State) (step : Nat) : UInt32 × Nat :=
  match step / 16 with
  | 0 => ((state.b &&& state.c) ||| (~~~state.b &&& state.d), step % 16)
  | 1 => ((state.d &&& state.b) ||| (~~~state.d &&& state.c), (5 * step + 1) % 16)
  | 2 => (state.b ^^^ state.c ^^^ state.d, (3 * step + 5) % 16)
  | _ => (state.c ^^^ (state.b ||| ~~~state.d), (7 * step) % 16)

/-- One step. -/
def advance (block : Array UInt32) (state : State) (step : Nat) : State :=
  let (mixed, index) := mix state step
  let word := state.a + mixed + constants.getD step 0 + block.getD index 0
  let count := rotations.getD (4 * (step / 16) + step % 4) 0
  ⟨state.d, state.b + rotateLeft word count, state.b, state.c⟩

/-- Mixes one block into the state. -/
def compress (state : State) (block : List UInt32) : State :=
  let mixed := (List.range 64).foldl (advance block.toArray) state
  ⟨state.a + mixed.a, state.b + mixed.b, state.c + mixed.c, state.d + mixed.d⟩

/-- The bytes of a number, lowest first. -/
def littleEndian (count value : Nat) : List UInt8 :=
  (List.range count).map fun index => UInt8.ofNat (value >>> (8 * index))

/-- The message with its padding: a marker, zeros, and the number of its bits. -/
def pad (message : List UInt8) : List UInt8 :=
  let zeros := (119 - message.length % 64) % 64
  message ++ 0x80 :: (List.replicate zeros 0 ++ littleEndian 8 (8 * message.length))

/-- The words of a byte sequence, lowest byte first. -/
def words : List UInt8 → List UInt32
  | b0 :: b1 :: b2 :: b3 :: rest =>
    (b0.toUInt32 ||| b1.toUInt32 <<< 8 ||| b2.toUInt32 <<< 16 ||| b3.toUInt32 <<< 24) :: words rest
  | _ => []

/-- The MD5 digest of a message: sixteen bytes. -/
def digest (message : List UInt8) : List UInt8 :=
  let input := words (pad message)
  let blocks := (List.range (input.length / 16)).map fun index => (input.drop (16 * index)).take 16
  let final := blocks.foldl compress .initial
  [final.a, final.b, final.c, final.d].flatMap fun word => littleEndian 4 word.toNat

@[simp] theorem length_littleEndian (count value : Nat) :
    (littleEndian count value).length = count := by
  simp [littleEndian]

@[simp] theorem length_digest (message : List UInt8) : (digest message).length = 16 := by
  simp [digest]

end ScopedCss.Md5
