import Mathlib.Algebra.Order.Ring.Int

/-!
# JavaScript and Go text

* `isSpace`, `trim` : `String.prototype.trim` (white space and line terminators of the language);
* `isSpaceGo` : what `strings.TrimSpace` removes (`unicode.IsSpace`);
* `utf16Length` : `String.length` in JavaScript, in UTF-16 units;
* `utf16Slice` : a text cut at a number of these;
* `bytePrefix` : the whole characters within a number of UTF-8 bytes;
* `upperAscii` : the ASCII characters of `toUpperCase`, for callers that drop the others.
-/

namespace IkelyaneMonitor.Text

def isSpace (c : Char) : Bool :=
  let n := c.toNat
  (9 ≤ n && n ≤ 13) || n == 0x20 || n == 0xA0 || n == 0x1680 || (0x2000 ≤ n && n ≤ 0x200A) || n == 0x2028 || n == 0x2029
    || n == 0x202F || n == 0x205F || n == 0x3000 || n == 0xFEFF

/-- Not the byte order mark, but the next line character. -/
def isSpaceGo (c : Char) : Bool :=
  let n := c.toNat
  (9 ≤ n && n ≤ 13) || n == 0x20 || n == 0x85 || n == 0xA0 || n == 0x1680 || (0x2000 ≤ n && n ≤ 0x200A) || n == 0x2028
    || n == 0x2029 || n == 0x202F || n == 0x205F || n == 0x3000

def trim (text : String) : String :=
  String.ofList (((text.toList.dropWhile isSpace).reverse.dropWhile isSpace).reverse)

def utf16Length (text : String) : Nat := (text.toList.map fun c => if c.toNat < 0x10000 then 1 else 2).sum

/-- The longest run of whole leading characters that takes at most `limit` bytes of UTF-8. -/
def bytePrefix (limit : Nat) : List Char → List Char
  | [] => []
  | c :: cs => if c.utf8Size ≤ limit then c :: bytePrefix (limit - c.utf8Size) cs else []

/-- `slice(0, limit)`; half of a character, which UTF-8 has not, is stored as U+FFFD. -/
def utf16Slice : Nat → List Char → List Char
  | _, [] => []
  | limit, c :: cs =>
    let units := if c.toNat < 0x10000 then 1 else 2
    if units ≤ limit then c :: utf16Slice (limit - units) cs else if limit = 1 then [Char.ofNat 0xFFFD] else []

/-- The ASCII characters of the upper case of `c`. Outside ASCII these are the full mappings of the Unicode tables that
contain an ASCII letter: sharp s, dotless i, long s, the ligatures and the letters with a combining mark of their own. -/
def upperAscii (c : Char) : List Char :=
  if c.toNat < 0x80 then [c.toUpper]
  else
    match c.toNat with
    | 0xDF => ['S', 'S']
    | 0x131 => ['I']
    | 0x149 => ['N']
    | 0x17F => ['S']
    | 0x1F0 => ['J']
    | 0x1E96 => ['H']
    | 0x1E97 => ['T']
    | 0x1E98 => ['W']
    | 0x1E99 => ['Y']
    | 0x1E9A => ['A']
    | 0xFB00 => ['F', 'F']
    | 0xFB01 => ['F', 'I']
    | 0xFB02 => ['F', 'L']
    | 0xFB03 => ['F', 'F', 'I']
    | 0xFB04 => ['F', 'F', 'L']
    | 0xFB05 | 0xFB06 => ['S', 'T']
    | _ => []

end IkelyaneMonitor.Text
