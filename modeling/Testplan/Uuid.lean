/-!
# Identifiers of 128 bits

Plans and jobs carry a 128-bit identifier, written as 32 hexadecimal digits in
groups of 8, 4, 4, 4 and 12.  Reading accepts that form, the digits without
hyphens, and the hyphenated form in braces or behind `urn:uuid:`, in either case.
-/
namespace Testplan

/-- **A 128-bit identifier.** -/
structure Uuid where
  val : BitVec 128
deriving DecidableEq, Inhabited

namespace Uuid

/-- The identifier with all bits zero. -/
def nil : Uuid := ⟨0⟩

/-- The value of a hexadecimal digit. -/
def digit? (c : Char) : Option Nat :=
  if '0' ≤ c ∧ c ≤ '9' then some (c.toNat - '0'.toNat)
  else if 'a' ≤ c ∧ c ≤ 'f' then some (c.toNat - 'a'.toNat + 10)
  else if 'A' ≤ c ∧ c ≤ 'F' then some (c.toNat - 'A'.toNat + 10)
  else none

/-- The number that a list of hexadecimal digits stands for. -/
def ofDigits? (cs : List Char) : Option Nat :=
  cs.foldl (fun acc c => do return 16 * (← acc) + (← digit? c)) (some 0)

/-- The groups of the hyphenated form, cut out of 36 characters. -/
def ofHyphenated? (cs : List Char) : Option Uuid :=
  if cs[8]? = some '-' ∧ cs[13]? = some '-' ∧ cs[18]? = some '-' ∧ cs[23]? = some '-' then
    (ofDigits? (cs.take 8 ++ (cs.drop 9).take 4 ++ (cs.drop 14).take 4 ++
      (cs.drop 19).take 4 ++ cs.drop 24)).map fun n => ⟨BitVec.ofNat 128 n⟩
  else none

/-- Reads an identifier in any of its written forms. -/
def parse? (s : String) : Option Uuid :=
  let cs := s.toList
  if cs.length = 32 then (ofDigits? cs).map fun n => ⟨BitVec.ofNat 128 n⟩
  else if cs.length = 36 then ofHyphenated? cs
  else if cs.length = 38 ∧ cs.head? = some '\x7b' ∧ cs.getLast? = some '\x7d' then
    ofHyphenated? (cs.drop 1).dropLast
  else if cs.length = 45 ∧ cs.take 9 = "urn:uuid:".toList then ofHyphenated? (cs.drop 9)
  else none

/-- The lower-case hexadecimal digits of `n`, `count` of them. -/
def digits : Nat → Nat → List Char
  | 0, _ => []
  | count + 1, n => digits count (n / 16) ++ [Nat.digitChar (n % 16)]

/-- The hyphenated lower-case form. -/
def render (u : Uuid) : String :=
  let n := u.val.toNat
  String.ofList (digits 8 (n >>> 96) ++ '-' :: digits 4 (n >>> 80) ++
    '-' :: digits 4 (n >>> 64) ++ '-' :: digits 4 (n >>> 48) ++ '-' :: digits 12 n)

instance : ToString Uuid := ⟨render⟩

end Uuid

end Testplan
