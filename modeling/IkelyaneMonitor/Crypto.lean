import IkelyaneMonitor.Wire.Text

/-!
# Encryption at rest (`lib/crypto.ts`)

* `Gcm` : AES-256-GCM under the master key, as the text in base64url of what goes in and comes out; all that is used of it
  is that it deciphers what it enciphered, under the same additional data;
* `encryptSecret`, `decryptSecret` : the format `v1:<iv>:<tag>:<ciphertext>`; `decryptSecret_encryptSecret`.
-/

namespace IkelyaneMonitor.Crypto
open Wire

/-- Some bytes in base64url. -/
structure Token where
  text : List Char
  ne : text ≠ []
  plain : ':' ∉ text

structure Gcm where
  cipher : (iv : Token) → (aad plaintext : String) → Token × { ciphertext : List Char // ':' ∉ ciphertext }
  decipher : (iv tag ciphertext : List Char) → (aad : String) → Option String
  decipher_cipher : ∀ iv aad plaintext,
    decipher iv.text (cipher iv aad plaintext).1.text (cipher iv aad plaintext).2.1 aad = some plaintext

variable (gcm : Gcm)

def encryptSecret (iv : Token) (plaintext aad : String) : String :=
  String.ofList ([':'].intercalate
    [['v', '1'], iv.text, (gcm.cipher iv aad plaintext).1.text, (gcm.cipher iv aad plaintext).2.1])

/-- `none` where the source throws. -/
def decryptSecret (payload aad : String) : Option String :=
  match payload.toList.splitOn ':' with
  | [version, iv, tag, ciphertext] =>
    if version ≠ ['v', '1'] ∨ iv = [] ∨ tag = [] then none else gcm.decipher iv tag ciphertext aad
  | _ => none

theorem splitOn_encryptSecret (iv : Token) (plaintext aad : String) :
    (encryptSecret gcm iv plaintext aad).toList.splitOn ':' =
      [['v', '1'], iv.text, (gcm.cipher iv aad plaintext).1.text, (gcm.cipher iv aad plaintext).2.1] := by
  rw [encryptSecret, String.toList_ofList]
  apply List.splitOn_intercalate
  · intro l hl
    simp only [List.mem_cons, List.not_mem_nil, or_false] at hl
    rcases hl with rfl | rfl | rfl | rfl
    · decide
    · exact iv.plain
    · exact (gcm.cipher iv aad plaintext).1.plain
    · exact (gcm.cipher iv aad plaintext).2.2
  · exact List.cons_ne_nil _ _

theorem decryptSecret_encryptSecret (iv : Token) (plaintext aad : String) :
    decryptSecret gcm (encryptSecret gcm iv plaintext aad) aad = some plaintext := by
  have hok : ¬ (['v', '1'] ≠ ['v', '1'] ∨ iv.text = [] ∨ (gcm.cipher iv aad plaintext).1.text = []) := by
    rw [not_or, not_or]
    exact ⟨not_not.mpr rfl, iv.ne, (gcm.cipher iv aad plaintext).1.ne⟩
  simp only [decryptSecret, splitOn_encryptSecret]
  rw [if_neg hok, gcm.decipher_cipher]

theorem encryptSecret_ne_empty (iv : Token) (plaintext aad : String) : encryptSecret gcm iv plaintext aad ≠ "" := by
  intro h
  have hsplit := splitOn_encryptSecret gcm iv plaintext aad
  rw [h] at hsplit
  cases hsplit

end IkelyaneMonitor.Crypto
