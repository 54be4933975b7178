import ScopedCss.Digest.Base64Url
import ScopedCss.Digest.Md5
import ScopedCss.Text.Blank

/-!
# Naming

A generator makes the name that is written to the output from a name of the style sheet, the path
of its file, and the number of names that came before it.  The built-in strategies use the start
of a digest of the path: `long` keeps the name and ignores the number, `short` does the opposite.
-/

namespace ScopedCss

/-- Makes a scoped name from a name, the path of its file, and its index. -/
abbrev Generator := Text → Option Text → Nat → Text

/-- The digest of a path: twenty-two characters.  A missing path counts as the empty one. -/
def pathDigest (path : Option Text) : Text :=
  Base64Url.encode (Md5.digest ((path.getD []).flatMap String.utf8EncodeChar))

/-- The part of the digest that goes into names. -/
def digestStart (path : Option Text) : Text :=
  (pathDigest path).take 6

@[simp] theorem length_pathDigest (path : Option Text) : (pathDigest path).length = 22 := by
  simp [pathDigest, Base64Url.length_encode]

@[simp] theorem length_digestStart (path : Option Text) : (digestStart path).length = 6 := by
  simp [digestStart]

theorem mem_alphabet_of_mem_digestStart {path : Option Text} {c : Char}
    (h : c ∈ digestStart path) : c ∈ Base64Url.alphabet :=
  Base64Url.mem_alphabet_of_mem_encode (List.mem_of_mem_take h)

/-- The built-in ways to name. -/
inductive Strategy where
  | long
  | short
deriving Repr, DecidableEq

namespace Strategy

/-- The strategy that is used when none is chosen. -/
def standard : Strategy := .long

/-- The names of the strategy.  A short name begins with a letter or `_`. -/
def generate : Strategy → Generator
  | .long => fun name path _ => name ++ '_' :: digestStart path
  | .short => fun _ path index =>
    let start := digestStart path
    let lead : Text := if (start.headD '_').isAlpha then [] else ['_']
    lead ++ start ++ Nat.toDigits 10 index

/-- The word for the strategy. -/
def word : Strategy → Text
  | .long => "long".toList
  | .short => "short".toList

/-- The strategy with exactly this word. -/
def ofWord? (text : Text) : Option Strategy :=
  if text = Strategy.long.word then some .long
  else if text = Strategy.short.word then some .short
  else none

/-- The strategy with this word in any case and with blanks around it. -/
def parse? (text : Text) : Option Strategy :=
  ofWord? text.trim.lower

/-- The wording of the error for a text that names no strategy. -/
def unknownMessage (text : Text) : String :=
  "unknown naming strategy `" ++ String.ofList text ++ "`, expected `long` or `short`"

end Strategy

end ScopedCss
