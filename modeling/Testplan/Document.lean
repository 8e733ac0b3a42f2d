import Testplan.SinglePrecision
import Testplan.TextCut
/-!
# Documents

Plans, discoveries, environments and configurations are kept in files.  A
`Document` is what such a file says, before its meaning is known: scalars, lists
and mappings from texts.

A scalar is either typed — a truth value, a whole number, a number with a
fraction, a text — or **plain**, as an unquoted scalar of a file is: what it is
then depends on who reads it.  `12` read as a text is "12", read as a number is 12;
an unquoted nothing is an empty list to a reader of lists.  A node may bear a **tag** that
says what kind of thing it is; only readers of what may be missing, and of names, ask
for it.

Below are the readers of scalars and the readers of the members of a mapping, from
which all readers of this library are built.
-/
namespace Testplan

/-- **What a file says.** -/
inductive Document where
  | null
  | bool (b : Bool)
  | int (n : Int)
  | float (x : Single)
  | text (s : String)
  | plain (s : String)
  | list (items : List Document)
  | map (members : List (String × Document))
  | tagged (tag : String) (node : Document)

instance : Inhabited Document := ⟨.null⟩

namespace Document

/-! ## Plain scalars -/

/-- The words for nothing. -/
def isNullWord (s : String) : Bool := ["~", "null", "Null", "NULL"].contains s

/-- The plain scalars that stand for nothing. -/
def isNullText (s : String) : Bool := s.isEmpty || isNullWord s

/-- The tag of nothing. -/
def nullTag : String := "tag:yaml.org,2002:null"

/-- The value of a digit in a base of at most 16. -/
def digitIn? (base : Nat) (c : Char) : Option Nat :=
  let d :=
    if c.isDigit then some (c.toNat - '0'.toNat)
    else if 'a' ≤ c ∧ c ≤ 'f' then some (c.toNat - 'a'.toNat + 10)
    else if 'A' ≤ c ∧ c ≤ 'F' then some (c.toNat - 'A'.toNat + 10)
    else none
  d.filter (· < base)

/-- The number that digits in a base stand for; at least one digit is needed. -/
def numberIn? (base : Nat) (cs : List Char) : Option Nat :=
  if cs.isEmpty then none
  else cs.foldl (fun acc c => do return base * (← acc) + (← digitIn? base c)) (some 0)

/-- The whole number that a plain scalar stands for: an optional plus sign, and
decimal digits without leading zeros, or digits in base 16, 8 or 2 behind `0x`, `0o`
or `0b`. -/
def naturalOf? (s : String) : Option Nat :=
  let unsigned : List Char := match s.toList with
    | '+' :: rest => rest
    | cs => cs
  match unsigned with
  | '0' :: 'x' :: rest => numberIn? 16 rest
  | '0' :: 'o' :: rest => numberIn? 8 rest
  | '0' :: 'b' :: rest => numberIn? 2 rest
  | '0' :: _ :: _ => none
  | cs => numberIn? 10 cs

/-- The digits of a decimal number with an optional fraction and exponent, as digits
and a power of ten. -/
def decimalOf? (cs : List Char) : Option (Nat × Int) := do
  let whole := cs.takeWhile Char.isDigit
  let rest := cs.drop whole.length
  let fraction := match rest with
    | '.' :: r => r.takeWhile Char.isDigit
    | _ => []
  let rest := match rest with
    | '.' :: r => r.drop fraction.length
    | r => r
  if whole.isEmpty ∧ fraction.isEmpty then none
  else
    let digits ← numberIn? 10 (whole ++ fraction)
    match rest with
    | [] => some (digits, -fraction.length)
    | e :: r =>
      if e = 'e' ∨ e = 'E' then
        let (negative, r) : Bool × List Char := match r with
          | '-' :: r => (true, r)
          | '+' :: r => (false, r)
          | r => (false, r)
        let n ← numberIn? 10 r
        let exponent : Int := if negative then -n else n
        some (digits, exponent - fraction.length)
      else none

/-- The number with a fraction that a plain scalar stands for. -/
def floatOf? (s : String) : Option Single :=
  if [".inf", ".Inf", ".INF", "+.inf", "+.Inf", "+.INF"].contains s then
    some (.infinity false)
  else if ["-.inf", "-.Inf", "-.INF"].contains s then some (.infinity true)
  else if [".nan", ".NaN", ".NAN"].contains s then some .nan
  else
    let (negative, cs) : Bool × List Char := match s.toList with
      | '-' :: cs => (true, cs)
      | '+' :: cs => (false, cs)
      | cs => (false, cs)
    (decimalOf? cs).bind fun (digits, exponent) => Single.ofDecimal? negative digits exponent

/-! ## Reading scalars and lists -/

def asText? : Document → Option String
  | text s | plain s => some s
  | tagged _ d => d.asText?
  | _ => none

def asBool? : Document → Option Bool
  | bool b => some b
  | plain s =>
    if ["true", "True", "TRUE"].contains s then some true
    else if ["false", "False", "FALSE"].contains s then some false
    else none
  | tagged _ d => d.asBool?
  | _ => none

/-- A whole number below a bound. -/
def asNat? (bound : Nat) : Document → Option Nat
  | int n => if 0 ≤ n ∧ n < bound then some n.toNat else none
  | plain s => (naturalOf? s).filter (· < bound)
  | tagged _ d => d.asNat? bound
  | _ => none

/-- A whole number of 64 bits. -/
def asNat64? (d : Document) : Option Nat := d.asNat? (1 <<< 64)

def asFloat? : Document → Option Single
  | float x => some x
  | int n => some (.ofRatio (n < 0) n.natAbs 1)
  | plain s => floatOf? s
  | tagged _ d => d.asFloat?
  | _ => none

/-- A list whose items are read by `item`. -/
def asList? {α : Type} (item : Document → Option α) : Document → Option (List α)
  | list items => items.mapM item
  | plain "" => some []
  | tagged _ d => d.asList? item
  | _ => none

/-- The members of a mapping. -/
def members? : Document → Option (List (String × Document))
  | map members => some members
  | plain "" => some []
  | tagged _ d => d.members?
  | _ => none

/-- Nothing, or what `value` reads. -/
def asOption? {α : Type} (value : Document → Option α) : Document → Option (Option α)
  | null => some none
  | plain s => if isNullText s then some none else (value (plain s)).map some
  | tagged tag (plain s) =>
    if tag ≠ nullTag then (value (tagged tag (plain s))).map some
    else if isNullWord s then some none
    else none
  | d => (value d).map some

/-! ## Reading records

A record is a mapping with known keys.  A known key may stand in it only once;
unknown keys are skipped. -/

/-- The members of a record, none of whose known keys is repeated. -/
def record? (known : List String) (d : Document) : Option (List (String × Document)) := do
  let members ← d.members?
  if known.any fun k => 1 < (members.filter fun m => m.1 = k).length then none
  else some members

/-- A member that must be there. -/
def required? {α : Type} (members : List (String × Document)) (key : String)
    (value : Document → Option α) : Option α := do
  value (← members.lookup key)

/-- A member that may be missing or nothing. -/
def optional? {α : Type} (members : List (String × Document)) (key : String)
    (value : Document → Option α) : Option (Option α) :=
  match members.lookup key with
  | none => some none
  | some d => d.asOption? value

/-- A member that stands for `default` if it is missing or nothing. -/
def optionalOr? {α : Type} (members : List (String × Document)) (key : String)
    (value : Document → Option α) (default : α) : Option α :=
  (optional? members key value).map (·.getD default)

/-- A member that stands for `default` if it is missing. -/
def withDefault? {α : Type} (members : List (String × Document)) (key : String)
    (value : Document → Option α) (default : α) : Option α :=
  match members.lookup key with
  | none => some default
  | some d => value d

/-! ## Writing records -/

/-- A member that is always written. -/
def always (key : String) (d : Document) : List (String × Document) := [(key, d)]

/-- A member that is written if it has a value. -/
def ifSome {α : Type} (key : String) (value : Option α) (write : α → Document) :
    List (String × Document) :=
  match value with
  | some v => [(key, write v)]
  | none => []

/-- A list of texts. -/
def texts (items : List String) : Document := list (items.map text)

/-- A natural number. -/
def natural (n : Nat) : Document := int n

end Document

end Testplan
