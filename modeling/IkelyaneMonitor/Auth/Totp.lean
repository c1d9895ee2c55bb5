import IkelyaneMonitor.Text

/-!
# Time-based one-time passwords (`lib/auth/totp.ts`)

* `base32Encode`, `base32Decode` : as the source computes them, with the 32-bit shifts of JavaScript;
* `hotp`, `verifyTotpCode` : RFC 4226 and RFC 6238 over a parameter `hmacSha1`, with one step of drift either way;
* `generateTotpSecret`, `generateRecoveryCode`, `normalizeRecoveryCode` : secrets and recovery codes. Random bytes are
  arguments.
-/

namespace IkelyaneMonitor.Auth

def base32Alphabet : List Char := "ABCDEFGHIJKLMNOPQRSTUVWXYZ234567".toList

def isBase32 (c : Char) : Bool := base32Alphabet.contains c

def stepSeconds : Int := 30
def digits : Nat := 6

/-- `BASE32_ALPHABET[value & 0x1f]`. -/
def base32Letter (value : BitVec 32) : Char := base32Alphabet.getD (value.toNat % 32) 'A'

/-- The letters of the whole groups of five among the last `bits` bits of `value`, and the number of bits left over. -/
def base32Emit (value : BitVec 32) : (bits : Nat) → List Char × Nat
  | bits + 5 =>
    let rest := base32Emit value bits
    (base32Letter (value >>> bits) :: rest.1, rest.2)
  | bits => ([], bits)

def base32EncodeLoop : List UInt8 → BitVec 32 → Nat → List Char
  | [], value, bits => if 0 < bits then [base32Letter (value <<< (5 - bits))] else []
  | byte :: bytes, value, bits =>
    let value := value <<< 8 ||| BitVec.ofNat 32 byte.toNat
    let emitted := base32Emit value (bits + 8)
    emitted.1 ++ base32EncodeLoop bytes value emitted.2

def base32Encode (buffer : List UInt8) : String := String.ofList (base32EncodeLoop buffer 0 0)

/-- `input.toUpperCase().replace(/[^A-Z2-7]/g, "")`. -/
def base32Clean (input : List Char) : List Char := (input.flatMap Text.upperAscii).filter isBase32

def base32DecodeLoop : List Char → BitVec 32 → Nat → List UInt8
  | [], _, _ => []
  | c :: cs, value, bits =>
    let value := value <<< 5 ||| BitVec.ofNat 32 (base32Alphabet.idxOf c)
    let bits := bits + 5
    if 8 ≤ bits then UInt8.ofNat (value >>> (bits - 8)).toNat :: base32DecodeLoop cs value (bits - 8)
    else base32DecodeLoop cs value bits

def base32Decode (encoded : String) : List UInt8 := base32DecodeLoop (base32Clean encoded.toList) 0 0

def generateTotpSecret (random : List UInt8) : String := base32Encode random

/-- Groups of four, as `/.{1,4}/g` matches them. -/
def fours : List Char → List (List Char)
  | a :: b :: c :: d :: cs => [a, b, c, d] :: fours cs
  | [] => []
  | cs => [cs]

def generateRecoveryCode (random : List UInt8) : String :=
  String.ofList (List.intercalate ['-'] (fours ((base32Encode random).toList.take 16)))

def normalizeRecoveryCode (input : String) : String := String.ofList (base32Clean (Text.trim input).toList)

/-- `/^\d{6}$/`. -/
@[irreducible] def isTotpShaped (code : String) : Bool := code.toList.length == digits && code.toList.all Char.isDigit

section Hotp
variable (hmacSha1 : List UInt8 → List UInt8 → List UInt8)

/-- `writeBigUInt64BE`. -/
def counterBuffer (counter : Int) : List UInt8 :=
  [56, 48, 40, 32, 24, 16, 8, 0].map fun shift => UInt8.ofNat ((counter % 2 ^ 64).toNat / 2 ^ shift)

/-- The decimal digits of a number below a million, padded with zeros. -/
def sixDigits (n : Nat) : String :=
  String.ofList ([100000, 10000, 1000, 100, 10, 1].map fun unit => Char.ofNat (48 + n / unit % 10))

def hotp (secret : List UInt8) (counter : Int) : String :=
  let digest := hmacSha1 secret (counterBuffer counter)
  let byteAt (i : Nat) : Nat := (digest.getD i 0).toNat
  let offset := byteAt (digest.length - 1) % 16
  let binary :=
    byteAt offset % 128 * 2 ^ 24 + byteAt (offset + 1) * 2 ^ 16 + byteAt (offset + 2) * 2 ^ 8 + byteAt (offset + 3)
  sixDigits (binary % 1000000)

def currentStep (time : Int) : Int := time / 1000 / stepSeconds

@[irreducible] def verifyTotpCode (base32Secret code : String) (time : Int) : Bool :=
  isTotpShaped code &&
    [-1, 0, 1].any fun drift => hotp hmacSha1 (base32Decode base32Secret) (currentStep time + drift) == code

end Hotp

end IkelyaneMonitor.Auth
