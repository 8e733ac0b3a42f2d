import Testplan.Script.Reader
/-!
# Texts in tool scripts

What scripts do with texts: match patterns, evaluate arithmetic, and print with formats
and escapes.
-/
namespace Testplan.Script

/-! ## Patterns -/

/-- A part of a pattern. -/
inductive Glob where
  | exactly (c : Char)
  | any
  | anyRun
  /-- One of the characters in the ranges, or with `negated` none of them. -/
  | oneOf (negated : Bool) (ranges : List (Char × Char))
deriving Repr

/-- The ranges in brackets, and what follows the closing one; a bracket at the start is
no closing one. -/
def bracketRanges? (first : Bool) :
    List (Char × Bool) → Option (List (Char × Char) × List (Char × Bool))
  | [] => none
  | (']', false) :: rest =>
    if first then do
      let (rs, rest) ← bracketRanges? false rest
      return ((']', ']') :: rs, rest)
    else some ([], rest)
  | (a, _) :: ('-', false) :: (b, q) :: rest =>
    if b = ']' && !q then do
      let (rs, rest) ← bracketRanges? false ((b, q) :: rest)
      return ((a, a) :: ('-', '-') :: rs, rest)
    else do
      let (rs, rest) ← bracketRanges? false rest
      return ((a, b) :: rs, rest)
  | (a, _) :: rest => do
    let (rs, rest) ← bracketRanges? false rest
    return ((a, a) :: rs, rest)

/-- The pattern that a text stands for; the marked characters are quoted. -/
def globOf : Nat → List (Char × Bool) → List Glob
  | 0, _ => []
  | _, [] => []
  | fuel + 1, (c, quoted) :: rest =>
    if quoted then .exactly c :: globOf fuel rest
    else if c = '?' then .any :: globOf fuel rest
    else if c = '*' then .anyRun :: globOf fuel rest
    else if c = '[' then
      let (negated, body) := match rest with
        | ('!', false) :: body => (true, body)
        | body => (false, body)
      match bracketRanges? true body with
      | some (ranges, rest) => .oneOf negated ranges :: globOf fuel rest
      | none => .exactly c :: globOf fuel rest
    else .exactly c :: globOf fuel rest

/-- The pattern matches the whole text. -/
def globMatches : List Glob → List Char → Bool
  | [], cs => cs.isEmpty
  | .anyRun :: gs, [] => globMatches gs []
  | .anyRun :: gs, c :: cs => globMatches gs (c :: cs) || globMatches (.anyRun :: gs) cs
  | _ :: _, [] => false
  | .exactly d :: gs, c :: cs => c = d && globMatches gs cs
  | .any :: gs, _ :: cs => globMatches gs cs
  | .oneOf negated ranges :: gs, c :: cs =>
    (ranges.any (fun (a, b) => a ≤ c && c ≤ b) != negated) && globMatches gs cs
termination_by gs cs => (cs.length, gs.length)

/-- A text without the shortest or longest match of a pattern at one end. -/
def trim (atEnd longest : Bool) (gs : List Glob) (s : String) : String :=
  let cs := s.toList
  let cuts := (List.range (cs.length + 1)).filter fun n =>
    globMatches gs (if atEnd then cs.drop n else cs.take n)
  let cut := if atEnd != longest then cuts.getLast? else cuts.head?
  match cut with
  | none => s
  | some n => String.ofList (if atEnd then cs.take n else cs.drop n)

/-! ## Arithmetic -/

/-- A sign, number or name in an arithmetic expression. -/
inductive Token where
  | number (n : Int)
  | name (s : String)
  | sign (s : String)
deriving DecidableEq, Repr

/-- The signs of two characters. -/
def doubleSigns : List String := ["&&", "||", "==", "!=", "<=", ">=", "<<", ">>"]

/-- The tokens of an arithmetic expression. -/
def tokensOf : Nat → List Char → Option (List Token)
  | 0, _ => none
  | _, [] => some []
  | fuel + 1, c :: rest =>
    if c = ' ' || c = '\t' || c = '\n' then tokensOf fuel rest
    else if c.isDigit then
      let digits := (c :: rest).takeWhile Char.isAlphanum
      let n : Option Nat := match digits with
        | '0' :: x :: ds =>
          if x = 'x' || x = 'X' then numberIn 16 ds else numberIn 8 (x :: ds)
        | ds => numberIn 10 ds
      do return .number (← n) :: (← tokensOf fuel ((c :: rest).drop digits.length))
    else if isNameChar c then
      let name := (c :: rest).takeWhile isNameChar
      do return .name (String.ofList name) :: (← tokensOf fuel ((c :: rest).drop name.length))
    else
      let pair := String.ofList (c :: rest.take 1)
      if pair ∈ doubleSigns then do return .sign pair :: (← tokensOf fuel (rest.drop 1))
      else do return .sign (String.singleton c) :: (← tokensOf fuel rest)
where
  /-- The number that digits in a base stand for. -/
  numberIn (base : Nat) (cs : List Char) : Option Nat :=
    cs.foldl (fun acc c => do
      let d := if c.isDigit then c.toNat - '0'.toNat else c.toLower.toNat - 'a'.toNat + 10
      if d < base then return base * (← acc) + d else none) (some 0)

/-- The binary operators by strength, the weakest first. -/
def binaryLevels : List (List String) :=
  [["||"], ["&&"], ["|"], ["^"], ["&"], ["==", "!="], ["<", "<=", ">", ">="], ["<<", ">>"],
    ["+", "-"], ["*", "/", "%"]]

/-- Why an arithmetic expression has no value. -/
inductive ArithmeticError where
  /-- The expression is wrong. -/
  | expression (problem : String)
  /-- The value of a variable is no number. -/
  | number (text : String)

/-- A number, or why there is none. -/
abbrev Arithmetic := Except ArithmeticError

/-- A number as a machine keeps it. -/
def kept (n : Int) : Int := (BitVec.ofInt 64 n).toInt

/-- What a binary operator makes of two numbers. -/
def applyBinary (op : String) (a b : Int) : Arithmetic Int :=
  let truth (p : Bool) : Arithmetic Int := return if p then 1 else 0
  let bits (f : Nat → Nat → Nat) : Arithmetic Int :=
    return (BitVec.ofNat 64 (f (BitVec.ofInt 64 a).toNat (BitVec.ofInt 64 b).toNat)).toInt
  let divided (f : Int → Int → Int) : Arithmetic Int :=
    if b = 0 then throw (.expression "division by zero") else return kept (f a b)
  match op with
  | "||" => truth (a ≠ 0 || b ≠ 0)
  | "&&" => truth (a ≠ 0 && b ≠ 0)
  | "|" => bits (· ||| ·)
  | "^" => bits (· ^^^ ·)
  | "&" => bits (· &&& ·)
  | "==" => truth (a = b)
  | "!=" => truth (a ≠ b)
  | "<" => truth (a < b)
  | "<=" => truth (a ≤ b)
  | ">" => truth (b < a)
  | ">=" => truth (b ≤ a)
  | "<<" => return kept (a * (1 <<< (b.toNat % 64) : Nat))
  | ">>" => return a.shiftRight (b.toNat % 64)
  | "+" => return kept (a + b)
  | "-" => return kept (a - b)
  | "*" => return kept (a * b)
  | "/" => divided Int.tdiv
  | "%" => divided Int.tmod
  | _ => throw (.expression "expecting EOF")

mutual

/-- A sum of operands at a level of strength; `value` gives the numbers of names. -/
def readLevel (value : String → Arithmetic Int) : Nat → List (List String) → List Token →
    Arithmetic (Int × List Token)
  | 0, _, _ => throw (.expression "expecting EOF")
  | fuel + 1, [], ts => readOperand value fuel ts
  | fuel + 1, ops :: levels, ts => do
    let (a, ts) ← readLevel value fuel levels ts
    readMore value fuel a ops levels ts

/-- The further operands at a level. -/
def readMore (value : String → Arithmetic Int) : Nat → Int → List String → List (List String) →
    List Token → Arithmetic (Int × List Token)
  | 0, _, _, _, _ => throw (.expression "expecting EOF")
  | fuel + 1, a, ops, levels, ts =>
    match ts with
    | .sign op :: rest =>
      if op ∈ ops then do
        let (b, ts) ← readLevel value fuel levels rest
        readMore value fuel (← applyBinary op a b) ops levels ts
      else return (a, ts)
    | _ => return (a, ts)

/-- A number, a name, a signed operand or an expression in parentheses. -/
def readOperand (value : String → Arithmetic Int) : Nat → List Token →
    Arithmetic (Int × List Token)
  | 0, _ => throw (.expression "expecting EOF")
  | fuel + 1, ts =>
    match ts with
    | .number n :: rest => return (n, rest)
    | .name s :: rest => do return (← value s, rest)
    | .sign "(" :: rest => do
      match ← readChoice value fuel rest with
      | (n, .sign ")" :: rest) => return (n, rest)
      | _ => throw (.expression "expecting ')'")
    | .sign "-" :: rest => do
      let (n, rest) ← readOperand value fuel rest
      return (kept (-n), rest)
    | .sign "~" :: rest => do
      let (n, rest) ← readOperand value fuel rest
      return (-n - 1, rest)
    | .sign "+" :: rest => readOperand value fuel rest
    | .sign "!" :: rest => do
      let (n, rest) ← readOperand value fuel rest
      return (if n = 0 then 1 else 0, rest)
    | _ => throw (.expression "expecting primary")

/-- A sum, or one of two by what a sum is. -/
def readChoice (value : String → Arithmetic Int) : Nat → List Token →
    Arithmetic (Int × List Token)
  | 0, _ => throw (.expression "expecting EOF")
  | fuel + 1, ts => do
    match ← readLevel value fuel binaryLevels ts with
    | (n, .sign "?" :: rest) =>
      match ← readChoice value fuel rest with
      | (a, .sign ":" :: rest) =>
        let (b, rest) ← readChoice value fuel rest
        return (if n = 0 then b else a, rest)
      | _ => throw (.expression "expecting ':'")
    | r => return r

end

/-- The value of an arithmetic expression without assignments; an empty one is zero. -/
def evaluate (value : String → Arithmetic Int) (ts : List Token) : Arithmetic Int :=
  if ts.isEmpty then return 0
  else do
    match ← readChoice value (20 * ts.length + 20) ts with
    | (n, []) => return n
    | _ => throw (.expression "expecting EOF")

/-! ## Escapes and formats -/

/-- The bytes of a text. -/
def bytesOf (s : String) : List UInt8 := s.toUTF8.toList

/-- The byte that up to three octal digits stand for. -/
def octal (cs : List Char) : UInt8 × List Char :=
  let digits := (cs.take 3).takeWhile fun c => '0' ≤ c ∧ c ≤ '7'
  (UInt8.ofNat (digits.foldl (fun n c => 8 * n + (c.toNat - '0'.toNat)) 0), cs.drop digits.length)

/-- The byte that a letter after a backslash stands for. -/
def escapeByte? : Char → Option UInt8
  | 'a' => some 7
  | 'b' => some 8
  | 'e' => some 27
  | 'f' => some 12
  | 'n' => some 10
  | 'r' => some 13
  | 't' => some 9
  | 'v' => some 11
  | '\\' => some 92
  | _ => none

/-- The bytes of an escape after its backslash. -/
def escapeBytes (cs : List Char) : List UInt8 × List Char :=
  match cs with
  | c :: rest =>
    if '0' ≤ c ∧ c ≤ '7' then
      let (b, rest) := octal cs
      ([b], rest)
    else match escapeByte? c with
      | some b => ([b], rest)
      | none => ([92], cs)
  | [] => ([92], [])

/-- A text with its escapes replaced, as `echo` prints it; `\c` ends all output. -/
def unescape : Nat → List Char → List UInt8 × Bool
  | 0, _ => ([], false)
  | _, [] => ([], false)
  | fuel + 1, c :: rest =>
    if c = '\\' then
      match rest with
      | 'c' :: _ => ([], true)
      | '0' :: more =>
        let (b, more) := octal more
        let (bs, ended) := unescape fuel more
        (b :: bs, ended)
      | _ =>
        let (here, more) := escapeBytes rest
        let (bs, ended) := unescape fuel more
        (here ++ bs, ended)
    else
      let (bs, ended) := unescape fuel rest
      (bytesOf (String.singleton c) ++ bs, ended)

/-- What `echo` prints. -/
def echoText (args : List String) : List UInt8 :=
  let (newline, args) := match args with
    | "-n" :: args => (false, args)
    | args => (true, args)
  let cs := (" ".intercalate args).toList
  let (bs, ended) := unescape (cs.length + 1) cs
  if ended || !newline then bs else bs ++ [10]

/-- The digits of a number in a base at the start of a text. -/
def digitsIn (base : Nat) (cs : List Char) : List Char :=
  cs.takeWhile fun c =>
    if c.isDigit then c.toNat - '0'.toNat < base
    else base = 16 && 'a' ≤ c.toLower && c.toLower ≤ 'f'

/-- The number that digits in a base stand for. -/
def numberOf (base : Nat) (digits : List Char) : Nat :=
  digits.foldl (fun n c =>
    base * n + (if c.isDigit then c.toNat - '0'.toNat else c.toLower.toNat - 'a'.toNat + 10)) 0

/-- The whole number that a text starts with. -/
def leadingInt (s : String) : Int :=
  match s.toList with
  | '-' :: rest => -(numberOf 10 (digitsIn 10 rest) : Int)
  | '+' :: rest => numberOf 10 (digitsIn 10 rest)
  | cs => numberOf 10 (digitsIn 10 cs)

/-- The number that an argument of a format stands for, and what is wrong with it. -/
def numeral (s : String) : Int × Option String :=
  let cs := s.toList.dropWhile fun c => c = ' ' || c = '\t' || c = '\n'
  let (negative, cs) := match cs with
    | '-' :: rest => (true, rest)
    | '+' :: rest => (false, rest)
    | cs => (false, cs)
  let (base, body) := match cs with
    | '0' :: 'x' :: rest | '0' :: 'X' :: rest => (16, rest)
    | '0' :: _ => (8, cs)
    | cs => (10, cs)
  let digits := digitsIn base body
  let n : Int := numberOf base digits
  let n := if negative then -n else n
  match s.toList with
  | [] => (0, none)
  | '\'' :: c :: _ | '"' :: c :: _ => (c.toNat, none)
  | _ =>
    if digits.isEmpty then (0, some "expected numeric value")
    else if digits.length < body.length then (n, some "not completely converted")
    else if n < -0x8000000000000000 then
      (-0x8000000000000000, some "Numerical result out of range")
    else if 0x8000000000000000 ≤ n then
      (0x7FFFFFFFFFFFFFFF, some "Numerical result out of range")
    else (n, none)

/-- A conversion of a format: flags, width, precision and letter. -/
structure Conversion where
  flags : List Char
  width : Nat
  precision : Option Nat
  letter : Char

/-- A conversion after its percent sign. -/
def conversion? (cs : List Char) : Option (Conversion × List Char) :=
  let flags := cs.takeWhile fun c => ['-', '0', '+', ' ', '#'].contains c
  let cs := cs.drop flags.length
  let width := cs.takeWhile Char.isDigit
  let cs := cs.drop width.length
  let (precision, cs) : Option Nat × List Char := match cs with
    | '.' :: rest =>
      let ds := rest.takeWhile Char.isDigit
      (some (numberOf 10 ds), rest.drop ds.length)
    | cs => (none, cs)
  match cs with
  | letter :: rest => some ({ flags, width := numberOf 10 width, precision, letter }, rest)
  | [] => none

/-- What a format prints, what is said about it, and whether that ends all output. -/
structure Printed where
  bytes : List UInt8 := []
  complaints : List String := []
  ended : Bool := false

/-- One output after the other. -/
def Printed.append (a b : Printed) : Printed :=
  if a.ended then a
  else { bytes := a.bytes ++ b.bytes, complaints := a.complaints ++ b.complaints, ended := b.ended }

namespace Conversion

/-- A text filled up to the width of a conversion. -/
def padded (k : Conversion) (body : List UInt8) : List UInt8 :=
  let gap := List.replicate (k.width - body.length) 32
  if '-' ∈ k.flags then body ++ gap else gap ++ body

/-- A number with its sign filled up to the width of a conversion. -/
def paddedNumber (k : Conversion) (sign digits : String) : List UInt8 :=
  let body := match k.precision with
    | some 0 => if digits = "0" then [] else bytesOf digits
    | some p => List.replicate (p - digits.length) 48 ++ bytesOf digits
    | none =>
      if '0' ∈ k.flags && '-' ∉ k.flags then
        List.replicate (k.width - sign.length - digits.length) 48 ++ bytesOf digits
      else bytesOf digits
  k.padded (bytesOf sign ++ body)

/-- An argument in the form that a conversion asks for. -/
def apply (k : Conversion) (arg : String) : Printed :=
  let cut (body : List UInt8) : List UInt8 := match k.precision with
    | some p => body.take p
    | none => body
  let (n, problem) := numeral arg
  let complaints := problem.toList.map fun p => arg ++ ": " ++ p
  let sign :=
    if n < 0 then "-" else if '+' ∈ k.flags then "+" else if ' ' ∈ k.flags then " " else ""
  let unsigned (base : Nat) (before : String) : Printed :=
    let digits := String.ofList (Nat.toDigits base (BitVec.ofInt 64 n).toNat)
    let before := if '#' ∈ k.flags && n ≠ 0 then before else ""
    { bytes := k.paddedNumber before digits, complaints }
  match k.letter with
  | 's' => { bytes := k.padded (cut (bytesOf arg)) }
  | 'b' =>
    let (body, ended) := unescape (arg.length + 1) arg.toList
    { bytes := k.padded (cut body), ended }
  | 'c' => { bytes := k.padded ((bytesOf arg).take 1) }
  | 'd' | 'i' => { bytes := k.paddedNumber sign (toString n.natAbs), complaints }
  | 'u' => unsigned 10 ""
  | 'o' => unsigned 8 "0"
  | 'x' => unsigned 16 "0x"
  | 'X' =>
    let p := unsigned 16 "0x"
    { p with bytes := p.bytes.map fun b => if 97 ≤ b ∧ b ≤ 122 then b - 32 else b }
  | c => { complaints := ["%" ++ String.singleton c ++ ": invalid directive"], ended := true }

end Conversion

/-- One pass of a format over arguments.  Gives the arguments left. -/
def formatOnce : Nat → List Char → List String → Printed × List String
  | 0, _, args => ({}, args)
  | _, [], args => ({}, args)
  | fuel + 1, c :: rest, args =>
    let more (here : Printed) (rest : List Char) (args : List String) : Printed × List String :=
      if here.ended then (here, [])
      else
        let (there, args) := formatOnce fuel rest args
        (here.append there, args)
    if c = '\\' then
      let (here, rest) := escapeBytes rest
      more { bytes := here } rest args
    else if c = '%' then
      match rest with
      | '%' :: rest => more { bytes := [37] } rest args
      | _ => match conversion? rest with
        | some (k, rest) => more (k.apply (args.head?.getD "")) rest (args.drop 1)
        | none => ({ complaints := ["missing format character"], ended := true }, [])
    else more { bytes := bytesOf (String.singleton c) } rest args

/-- The output of a format that is used again as long as it takes up arguments. -/
def formatAll : Nat → List Char → List String → Printed
  | 0, _, _ => {}
  | fuel + 1, format, args =>
    let (here, left) := formatOnce (format.length + 1) format args
    if left.isEmpty || left.length = args.length then here
    else here.append (formatAll fuel format left)

/-- **What `printf` prints.** -/
def printed (format : String) (args : List String) : Printed :=
  formatAll (args.length + 1) format.toList args

end Testplan.Script
