import Oxbin.Data.Base64
import Oxbin.Live.Contract
import Mathlib.Data.List.Basic

/-!
# Passwords of live rooms

`hashPassword` and `verifyPassword` of `internal/httpapi/live.go`.  A hash is kept as text with its
parameters, which the check reads again and compares with those in force.
-/

namespace Oxbin.Httpapi

/-- `argon2.IDKey`. -/
class Argon2 where
  idKey (password : String) (salt : List UInt8) (time memory threads keyLen : Nat) : List UInt8

def livePasswordMaxBytes : Int := 256
def livePasswordSaltBytes : Nat := 16
def livePasswordKeyBytes : Nat := 32
def livePasswordMemory : Nat := 64 * 1024
def livePasswordIterations : Nat := 3
def livePasswordParallelism : Nat := 1

/-! ## The standard alphabet -/

/-- The alphabet of `base64.RawStdEncoding`. -/
def stdAlphabet : List Char :=
  ['A', 'B', 'C', 'D', 'E', 'F', 'G', 'H', 'I', 'J', 'K', 'L', 'M', 'N', 'O', 'P', 'Q', 'R', 'S',
    'T', 'U', 'V', 'W', 'X', 'Y', 'Z', 'a', 'b', 'c', 'd', 'e', 'f', 'g', 'h', 'i', 'j', 'k', 'l',
    'm', 'n', 'o', 'p', 'q', 'r', 's', 't', 'u', 'v', 'w', 'x', 'y', 'z', '0', '1', '2', '3', '4',
    '5', '6', '7', '8', '9', '+', '/']

/-- The letter of a sextet. -/
def stdLetter (sextet : Nat) : Char := stdAlphabet.getD sextet '='

/-- The sextet of a letter. -/
def stdSextet (rune : Char) : Option Nat :=
  if rune ∈ stdAlphabet then some (stdAlphabet.idxOf rune) else none

theorem stdSextet_stdLetter : ∀ sextet < 64, stdSextet (stdLetter sextet) = some sextet := by decide

theorem stdLetter_plain : ∀ sextet < 64,
    (stdLetter sextet ≠ '\r' ∧ stdLetter sextet ≠ '\n') ∧ stdLetter sextet ≠ '$' := by decide

theorem decode_encode_std (word : List UInt8) :
    Base64.decode stdSextet (Base64.encode stdLetter word) = some word :=
  Base64.decode_encode stdSextet_stdLetter (fun sextet small => (stdLetter_plain sextet small).1)
    word

/-! ## Scanning -/

/-- The runes that `fmt` takes for spaces. -/
def isSpace (rune : Char) : Bool :=
  let value := rune.toNat
  (0x9 ≤ value ∧ value ≤ 0xd) ∨ value ∈ [0x20, 0x85, 0xa0, 0x1680, 0x2028, 0x2029, 0x202f, 0x205f,
    0x3000] ∨ (0x2000 ≤ value ∧ value ≤ 0x200a)

/-- `SkipSpace` of `fmt`; a line break is an error. -/
def skipSpace : List Char → Option (List Char)
  | [] => some []
  | rune :: runes =>
      if rune = '\n' then none
      else if isSpace rune then skipSpace runes
      else some (rune :: runes)

/-- The verb `%d` for an unsigned integer of so many bits. -/
def scanUint (bits : Nat) (input : List Char) : Option (Nat × List Char) := do
  let input ← skipSpace input
  let digits := input.takeWhile Char.isDigit
  let value := digits.foldl (fun value digit => value * 10 + (digit.toNat - '0'.toNat)) 0
  if digits = [] ∨ 2 ^ bits ≤ value then none
  else some (value, input.dropWhile Char.isDigit)

/-- Runes of the format that stand for themselves. -/
def scanText (text input : List Char) : Option (List Char) :=
  if text.isPrefixOf input then some (input.drop text.length) else none

/-- `fmt.Sscanf` with the format `m=%d,t=%d,p=%d`; what follows is not read. -/
def scanParameters (input : List Char) : Option (Nat × Nat × Nat) := do
  let input ← scanText ['m', '='] input
  let (memory, input) ← scanUint 32 input
  let input ← scanText [',', 't', '='] input
  let (iterations, input) ← scanUint 32 input
  let input ← scanText [',', 'p', '='] input
  let (parallelism, _) ← scanUint 8 input
  some (memory, iterations, parallelism)

/-! ## Hashes -/

/-- The parameters of a hash, as text. -/
def parameterText : List Char :=
  ['m', '='] ++ (toString livePasswordMemory).toList ++ [',', 't', '='] ++
    (toString livePasswordIterations).toList ++ [',', 'p', '='] ++
      (toString livePasswordParallelism).toList

theorem scanParameters_parameterText : scanParameters parameterText =
    some (livePasswordMemory, livePasswordIterations, livePasswordParallelism) := by decide +kernel

variable [Argon2]

/-- The key of a password. -/
def passwordKey (password : String) (salt : List UInt8) : List UInt8 :=
  Argon2.idKey password salt livePasswordIterations livePasswordMemory livePasswordParallelism
    livePasswordKeyBytes

/-- `hashPassword`, with a slot and the random salt. -/
def hashPassword (password : String) (salt : List UInt8) : String :=
  if password = "" then ""
  else String.ofList (List.intercalate ['$'] [['v', '1'], "argon2id".toList, parameterText,
    Base64.encode stdLetter salt, Base64.encode stdLetter (passwordKey password salt)])

/-- The errors of `verifyPassword`. -/
inductive PasswordError where
  | busy
  | invalidHash
  deriving DecidableEq, Repr

/-- `verifyPassword`; `free` says whether there is a slot. -/
def verifyPassword (free : Bool) (password encoded : String) : Except PasswordError Bool :=
  if free = false then .error .busy
  else
    match encoded.toList.splitOn '$' with
    | [version, algorithm, parameters, salt, key] =>
        if version ≠ ['v', '1'] ∨ algorithm ≠ "argon2id".toList then .error .invalidHash
        else if scanParameters parameters ≠
            some (livePasswordMemory, livePasswordIterations, livePasswordParallelism) then
          .error .invalidHash
        else
          match Base64.decode stdSextet salt with
          | none => .error .invalidHash
          | some salt =>
              if salt.length ≠ livePasswordSaltBytes then .error .invalidHash
              else
                match Base64.decode stdSextet key with
                | none => .error .invalidHash
                | some expected =>
                    if expected.length ≠ livePasswordKeyBytes then .error .invalidHash
                    else .ok (passwordKey password salt = expected)
    | _ => .error .invalidHash

/-- The fields of a hash. -/
theorem splitOn_hashPassword {password : String} (given : password ≠ "") (salt : List UInt8) :
    (hashPassword password salt).toList.splitOn '$' = [['v', '1'], "argon2id".toList, parameterText,
      Base64.encode stdLetter salt, Base64.encode stdLetter (passwordKey password salt)] := by
  have plain (word : List UInt8) : '$' ∉ Base64.encode stdLetter word := by
    intro member
    obtain ⟨sextet, listed, same⟩ := List.mem_map.mp member
    exact (stdLetter_plain sextet (Base64.sextets_lt word sextet listed)).2 same
  rw [hashPassword, if_neg given, String.toList_ofList]
  refine List.splitOn_intercalate '$' (fun field member => ?_) (by simp)
  simp only [List.mem_cons, List.not_mem_nil, or_false] at member
  rcases member with rfl | rfl | rfl | rfl | rfl
  · decide
  · decide
  · decide +kernel
  · exact plain salt
  · exact plain (passwordKey password salt)

/-- A hash admits the passwords with the key that it was made from. -/
theorem verifyPassword_hashPassword {password : String} (given : password ≠ "") {salt : List UInt8}
    {candidate : String} :
    verifyPassword true candidate (hashPassword password salt) = .ok true ↔
      salt.length = livePasswordSaltBytes ∧
        (passwordKey password salt).length = livePasswordKeyBytes ∧
        passwordKey candidate salt = passwordKey password salt := by
  rw [verifyPassword, if_neg (by decide), splitOn_hashPassword given]
  simp only [ne_eq, not_true_eq_false, or_self, if_false, scanParameters_parameterText,
    decode_encode_std]
  by_cases salted : salt.length = livePasswordSaltBytes
  · by_cases keyed : (passwordKey password salt).length = livePasswordKeyBytes
    · simp [salted, keyed]
    · simp [salted, keyed]
  · simp [salted]

end Oxbin.Httpapi
