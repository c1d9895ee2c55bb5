import Mathlib
import IkelyaneMonitor.Text

/-!
# Addresses and passwords (`lib/auth/request.ts`, `lib/auth/users.ts`, `lib/auth/password.ts`)

* `normalizeEmail`, `isEmailShaped` : the form an address is looked up in, and the `EMAIL_SHAPE` of new ones;
* `validatePasswordPolicy` : what a new password must satisfy.

`toLowerCase` is a parameter: its tables are those of Unicode.
-/

namespace IkelyaneMonitor.Auth

def passwordMinLength : Nat := 12
def passwordMaxLength : Nat := 128

inductive PolicyFailure where
  | tooShort | tooLong | common | containsEmail | repetitive
  deriving DecidableEq, Repr

def commonPasswords : List String :=
  ["password", "passw0rd", "password1", "password123", "123456789012", "1234567890123", "qwertyuiop12",
    "azertyuiop12", "azerty123456", "qwerty123456", "letmein12345", "welcome12345", "administrator",
    "iloveyou1234", "changeme1234", "motdepasse12", "motdepasse123", "abc123456789", "monitoring12",
    "ikelyanemonitor", "adminadmin12", "admin1234567", "1q2w3e4r5t6y", "0123456789ab"]

/-- `[^\s@]+\.[^\s@]{2,}` on a text without white space and `@`: a dot, not first, with two units after it. -/
def isDomainShaped (domain : List Char) : Bool :=
  domain.tails.tail.any fun
    | '.' :: rest => decide (2 ≤ Text.utf16Length (String.ofList rest))
    | _ => false

/-- `EMAIL_SHAPE`. -/
def isEmailShaped (email : String) : Bool :=
  email.toList.all (fun c => !Text.isSpace c) &&
    match email.toList.splitOn '@' with
    | [user, domain] => !user.isEmpty && isDomainShaped domain
    | _ => false

section Case
variable (toLowerCase : String → String)

def normalizeEmail (email : String) : String := toLowerCase (Text.trim email)

/-- `none` when the password is accepted. -/
def validatePasswordPolicy (password email : String) : Option PolicyFailure :=
  let lowered := toLowerCase password
  let flattened := String.ofList (lowered.toList.filter fun c => c.isLower || c.isDigit)
  let user := toLowerCase (String.ofList (email.toList.takeWhile (· ≠ '@')))
  if password.toList.length < passwordMinLength then some .tooShort
  else if passwordMaxLength < Text.utf16Length password then some .tooLong
  else if commonPasswords.contains lowered || commonPasswords.contains flattened then some .common
  else if lowered.toList.dedup.length ≤ 3 then some .repetitive
  else if 4 ≤ Text.utf16Length user ∧ user.toList <:+: lowered.toList then some .containsEmail
  else none

end Case

example : isEmailShaped "ops@example.org" = true ∧ isEmailShaped "ops@example.o" = false ∧
    isEmailShaped "a@b@c.org" = false := by
  decide +kernel

example : validatePasswordPolicy id "correct horse staple" "ops@example.org" = none ∧
    validatePasswordPolicy id "1212121212121212" "ops@example.org" = some .repetitive ∧
    validatePasswordPolicy id "welcome-1-2-3-4-5" "ops@example.org" = some .common := by
  decide +kernel

end IkelyaneMonitor.Auth
