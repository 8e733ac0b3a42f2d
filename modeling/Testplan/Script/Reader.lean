import Testplan.Script.Characters
import Testplan.Script.Syntax
/-!
# Reading tool scripts

`Program.read` reads a script in the command language of the POSIX shell: simple commands
with assignments and redirections, pipelines, lists with `&&`, `||`, `;` and `&`, groups,
subshells, `if`, `while`, `until`, `for`, `case` and functions; in words quotes, variables
with their substitutions, command output and arithmetic.  A script is read line by line,
so that the lines before one that is wrong are still commands.

A function that reads something gives it together with the rest of the script.  The
functions that call one another count down `fuel`; a small multiple of the length of the
script suffices.
-/
namespace Testplan.Script

/-- The words that end a list of commands. -/
def isTerminator (s : String) : Bool :=
  ["then", "else", "elif", "fi", "do", "done", "esac", "\x7d"].contains s

/-- A word with a meaning of its own where a command may start. -/
def isKeyword (s : String) : Bool :=
  isTerminator s || ["if", "while", "until", "for", "case", "in", "\x7b", "!"].contains s

/-! ## Errors -/

/-- What is read, or what is wrong. -/
abbrev Reading := Except SyntaxError

/-- What comes next, as errors name it, and what follows that. -/
def nextToken (cs : List Char) : String × List Char :=
  match skipBlanks cs with
  | [] => ("end of file", [])
  | '\n' :: rest => ("newline", rest)
  | '<' :: rest | '>' :: rest => ("redirection", rest)
  | ';' :: ';' :: rest => ("\";;\"", rest)
  | '&' :: '&' :: rest => ("\"&&\"", rest)
  | '|' :: '|' :: rest => ("\"||\"", rest)
  | c :: rest =>
    if isMeta c then ("\"" ++ String.singleton c ++ "\"", rest)
    else
      let word := bareWord (c :: rest)
      (if isKeyword word then "\"" ++ word ++ "\"" else "word", (c :: rest).drop word.length)

/-- The error with a message, before the rest of the script. -/
def wrong {α : Type} (message : String) (rest : List Char) : Reading α :=
  throw { message := "Syntax error: " ++ message, linesAfter := rest.count '\n' }

/-- The error that nothing can be made of what comes next. -/
def unexpected {α : Type} (cs : List Char) : Reading α :=
  wrong ((nextToken cs).1 ++ " unexpected") (nextToken cs).2

/-- The error that something else should come next. -/
def expecting {α : Type} (token : String) (cs : List Char) : Reading α :=
  wrong ((nextToken cs).1 ++ " unexpected (expecting \"" ++ token ++ "\")") (nextToken cs).2

/-- The error of a substitution that is none. -/
def badSubstitution {α : Type} (rest : List Char) : Reading α :=
  throw { message := "Bad substitution", linesAfter := rest.count '\n' }

/-- The rest after a keyword, which may stand on a later line. -/
def keyword? (k : String) (cs : List Char) : Option (List Char) :=
  let cs := skipLines cs
  if bareWord cs = k ∧ (cs.drop k.length).head?.all fun c => isMeta c then some (cs.drop k.length)
  else none

/-- The rest after a keyword that has to come. -/
def keyword (k : String) (cs : List Char) : Reading (List Char) :=
  match keyword? k cs with
  | some rest => return rest
  | none => expecting k (skipLines cs)

/-- The rest after a closing parenthesis that has to come. -/
def closing (cs : List Char) : Reading (List Char) :=
  match cs with
  | ')' :: rest => return rest
  | cs => expecting ")" cs

/-! ## Contexts -/

/-- Where pieces are read, and with that where they end. -/
inductive Context where
  | word
  /-- In double quotes. -/
  | quoted
  /-- In the braces of a substitution; `quoted` tells whether quotes stand around it. -/
  | braces (quoted : Bool)
  /-- To the end of the text, as if in quotes. -/
  | whole
deriving DecidableEq

/-- Pieces read here are quoted. -/
def Context.isQuoted : Context → Bool
  | word => false
  | quoted | whole => true
  | braces q => q

/-- The pieces end before this character. -/
def Context.endsAt : Context → Char → Bool
  | word, c => isMeta c
  | quoted, c => c = '"'
  | braces _, c => c = '\x7d'
  | whole, _ => false

/-- The substitution that a sign stands for. -/
def substituteOf? : Char → Option Substitute
  | '-' => some .fallback
  | '=' => some .assign
  | '+' => some .alternative
  | '?' => some .demand
  | _ => none

/-- The name of a variable, after a dollar sign or an opening brace. -/
def nameOf? (cs : List Char) : Option (String × List Char) :=
  match cs with
  | c :: rest =>
    if isNameChar c && !c.isDigit then
      let name := cs.takeWhile isNameChar
      some (String.ofList name, cs.drop name.length)
    else if isSpecialName c then some (String.singleton c, rest)
    else none
  | [] => none

/-! ## Words and commands -/

mutual

/-- The pieces of a word, up to where the context ends. -/
def readPieces : Nat → Context → List Char → Reading (List Piece × List Char)
  | 0, _, cs => unexpected cs
  | fuel + 1, context, cs => do
    let quoted := context.isQuoted
    let more (p : List Piece) (rest : List Char) : Reading (List Piece × List Char) := do
      let (ps, rest) ← readPieces fuel context rest
      return (p ++ ps, rest)
    match cs with
    | [] => match context with
      | .word | .whole => return ([], [])
      | .quoted => wrong "Unterminated quoted string" []
      | .braces _ => wrong "Missing '\x7d'" []
    | c :: rest =>
      if context.endsAt c then return ([], cs)
      else if c = '\'' && !quoted then
        match Text.cutAtChar '\'' rest with
        | some (inside, rest) => more [.text (String.ofList inside) true] rest
        | none => wrong "Unterminated quoted string" []
      else if c = '"' && context ≠ .whole then
        if quoted then more [] rest
        else
          let (ps, rest) ← readPieces fuel .quoted rest
          let vanishes := ps.any fun p => p matches .value "@" true
          more (if vanishes then ps else .text "" true :: ps) (rest.drop 1)
      else if c = '\\' then
        match rest with
        | '\n' :: rest => more [] rest
        | d :: rest =>
          if !quoted || isActive d && d ≠ '\'' && !(d = '"' && context = .whole) then
            more [.text (String.singleton d) true] rest
          else more [.text (String.ofList ['\\', d]) true] rest
        | [] => more [.text "\\" true] []
      else if c = '`' then
        match backquoted? [] rest with
        | some (inside, rest) =>
          let (body, left) ← readList fuel true inside
          if left.isEmpty then more [.output body quoted] rest else unexpected left
        | none => wrong "EOF in backquote substitution" []
      else if c = '$' then
        let (p, rest) ← readDollar fuel quoted rest
        more [p] rest
      else
        let run := cs.takeWhile fun d => !context.endsAt d && !isActive d
        if run.isEmpty then more [.text (String.singleton c) quoted] rest
        else more [.text (String.ofList run) quoted] (cs.drop run.length)

/-- What follows a dollar sign. -/
def readDollar : Nat → Bool → List Char → Reading (Piece × List Char)
  | 0, _, cs => unexpected cs
  | fuel + 1, quoted, cs =>
    match cs with
    | '(' :: '(' :: rest =>
      match arithmeticText? 0 [] rest with
      | some (inside, rest) => do
        let (ps, _) ← readPieces fuel .whole inside
        return (.arithmetic ps quoted, rest)
      | none => wrong "Missing '))'" []
    | '(' :: rest => do
      let (body, cs) ← readList fuel true rest
      return (.output body quoted, ← closing (skipLines cs))
    | '\x7b' :: rest => readBraces fuel quoted rest
    | _ => match nameOf? cs with
      | some (name, rest) => return (.value name quoted, rest)
      | none => return (.text "$" quoted, cs)

/-- What follows a dollar sign and an opening brace. -/
def readBraces : Nat → Bool → List Char → Reading (Piece × List Char)
  | 0, _, cs => unexpected cs
  | fuel + 1, quoted, cs =>
    let closed (p : Piece) : List Char → Reading (Piece × List Char)
      | '\x7d' :: rest => return (p, rest)
      | [] => wrong "Missing '\x7d'" []
      | rest => badSubstitution rest
    let trimmed (name : String) (atEnd longest : Bool) (rest : List Char) :
        Reading (Piece × List Char) := do
      let (w, rest) ← readPieces fuel (.braces false) rest
      closed (.trimmed name atEnd longest w quoted) rest
    let substitute (name : String) (how : Substitute) (orEmpty : Bool) (rest : List Char) :
        Reading (Piece × List Char) := do
      let (w, rest) ← readPieces fuel (.braces quoted) rest
      closed (.substitute name how orEmpty w quoted) rest
    let size? : Option (Piece × List Char) := match cs with
      | '#' :: rest => match nameOf? rest with
        | some (name, '\x7d' :: rest) => some (.size name quoted, rest)
        | _ => none
      | _ => none
    match size?, nameOf? cs with
    | some r, _ => return r
    | none, none => badSubstitution cs
    | none, some (name, rest) =>
      match rest with
      | '%' :: '%' :: rest => trimmed name true true rest
      | '%' :: rest => trimmed name true false rest
      | '#' :: '#' :: rest => trimmed name false true rest
      | '#' :: rest => trimmed name false false rest
      | ':' :: sign :: rest => match substituteOf? sign with
        | some how => substitute name how true rest
        | none => badSubstitution rest
      | sign :: more => match substituteOf? sign with
        | some how => substitute name how false more
        | none => closed (.value name quoted) rest
      | [] => closed (.value name quoted) rest

/-- A redirection, if one comes next. -/
def readRedirection : Nat → List Char → Reading (Option Redirection × List Char)
  | 0, cs => unexpected cs
  | fuel + 1, cs =>
    let digits := cs.takeWhile Char.isDigit
    let descriptor (standard : Nat) : Nat := ((String.ofList digits).toNat?).getD standard
    let target (standard : Nat) (direction : Direction) (rest : List Char) :
        Reading (Option Redirection × List Char) := do
      let rest := skipBlanks rest
      let (w, more) ← readPieces fuel .word rest
      if w.isEmpty then unexpected rest
      else return (some (.to (descriptor standard) direction w), more)
    match cs.drop digits.length with
    | '>' :: '>' :: rest => target 1 .append rest
    | '>' :: '&' :: rest => target 1 .duplicate rest
    | '>' :: '|' :: rest => target 1 .output rest
    | '>' :: rest => target 1 .output rest
    | '<' :: '<' :: rest => do
      let (literal, rest) := match rest with
        | '\'' :: rest => (true, rest)
        | rest => (false, rest)
      let size := rest.takeWhile Char.isDigit
      match (String.ofList size).toNat?, rest.drop size.length with
      | some n, ':' :: rest =>
        let ps ← if literal then pure [.text (String.ofList (rest.take n)) true]
          else Prod.fst <$> readPieces fuel .whole (rest.take n)
        return (some (.to (descriptor 0) .here ps), rest.drop n)
      | _, _ => unexpected rest
    | '<' :: '&' :: rest => target 0 .duplicate rest
    | '<' :: rest => target 0 .input rest
    | _ => return (none, cs)

/-- The redirections behind a compound command. -/
def readRedirections : Nat → List Char → Reading (List Redirection × List Char)
  | 0, cs => unexpected cs
  | fuel + 1, cs => do
    match ← readRedirection fuel (skipBlanks cs) with
    | (some r, rest) =>
      let (rs, rest) ← readRedirections fuel rest
      return (r :: rs, rest)
    | (none, rest) => return ([], rest)

/-- The further parts of a simple command. -/
def readSimple : Nat → Nat → List (String × List Piece) → List (List Piece) →
    List Redirection → List Char → Reading (Command × List Char)
  | 0, _, _, _, _, cs => unexpected cs
  | fuel + 1, after, assignments, words, redirections, cs => do
    let cs := skipBlanks cs
    match ← readRedirection fuel cs with
    | (some r, rest) => readSimple fuel after assignments words (redirections ++ [r]) rest
    | (none, _) =>
      let name := cs.takeWhile isNameChar
      match cs.drop name.length with
      | '=' :: rest =>
        if words.isEmpty && isName name then
          let (w, rest) ← readPieces fuel .word rest
          readSimple fuel after (assignments ++ [(String.ofList name, w)]) words redirections rest
        else readWord fuel after assignments words redirections cs
      | _ => readWord fuel after assignments words redirections cs

/-- One more word of a simple command, or its end. -/
def readWord : Nat → Nat → List (String × List Piece) → List (List Piece) →
    List Redirection → List Char → Reading (Command × List Char)
  | 0, _, _, _, _, cs => unexpected cs
  | fuel + 1, after, assignments, words, redirections, cs => do
    let (w, rest) ← readPieces fuel .word cs
    if w.isEmpty then
      if assignments.isEmpty && words.isEmpty && redirections.isEmpty then unexpected cs
      else return (.simple after assignments words redirections, rest)
    else readSimple fuel after assignments (words ++ [w]) redirections rest

/-- The words behind `in`, up to the end of the line. -/
def readWords : Nat → List Char → Reading (List (List Piece) × List Char)
  | 0, cs => unexpected cs
  | fuel + 1, cs => do
    let (w, rest) ← readPieces fuel .word (skipBlanks cs)
    if w.isEmpty then return ([], skipBlanks rest)
    else
      let (ws, rest) ← readWords fuel rest
      return (w :: ws, rest)

/-- The branches of a conditional after `if` or `elif`. -/
def readBranches : Nat → List Char →
    Reading ((List (List Command × List Command) × List Command) × List Char)
  | 0, cs => unexpected cs
  | fuel + 1, cs => do
    let (condition, cs) ← readBody fuel cs
    let (body, cs) ← readBody fuel (← keyword "then" cs)
    match keyword? "elif" cs, keyword? "else" cs with
    | some cs, _ =>
      let ((branches, otherwise), cs) ← readBranches fuel cs
      return (((condition, body) :: branches, otherwise), cs)
    | none, some cs =>
      let (otherwise, cs) ← readBody fuel cs
      return (([(condition, body)], otherwise), ← keyword "fi" cs)
    | none, none => return (([(condition, body)], []), ← keyword "fi" cs)

/-- The patterns of an arm of `case`, up to the parenthesis. -/
def readPatterns : Nat → List Char → Reading (List (List Piece) × List Char)
  | 0, cs => unexpected cs
  | fuel + 1, cs => do
    let (w, rest) ← readPieces fuel .word (skipBlanks cs)
    match skipBlanks rest with
    | '|' :: rest =>
      let (ws, rest) ← readPatterns fuel rest
      return (w :: ws, rest)
    | rest => return ([w], ← closing rest)

/-- The arms of `case`, up to its end. -/
def readArms : Nat → List Char →
    Reading (List (List (List Piece) × List Command) × List Char)
  | 0, cs => unexpected cs
  | fuel + 1, cs =>
    match keyword? "esac" cs with
    | some cs => return ([], cs)
    | none => do
      let cs := skipLines cs
      let (patterns, cs) ← readPatterns fuel (match cs with
        | '(' :: rest => rest
        | cs => cs)
      let (body, cs) ← readList fuel true cs
      match skipLines cs with
      | ';' :: ';' :: rest =>
        let (arms, cs) ← readArms fuel rest
        return ((patterns, body) :: arms, cs)
      | cs => match keyword? "esac" cs with
        | some cs => return ([(patterns, body)], cs)
        | none => expecting ";;" cs

/-- A command. -/
def readCommand : Nat → List Char → Reading (Command × List Char)
  | 0, cs => unexpected cs
  | fuel + 1, cs => do
    let cs := skipBlanks cs
    let word := bareWord cs
    let rest := cs.drop word.length
    if word = "if" then
      let ((branches, otherwise), cs) ← readBranches fuel rest
      let (rs, cs) ← readRedirections fuel cs
      return (.conditional branches otherwise rs, cs)
    else if word = "while" || word = "until" then
      let (condition, cs) ← readBody fuel rest
      let (body, cs) ← readBody fuel (← keyword "do" cs)
      let (rs, cs) ← readRedirections fuel (← keyword "done" cs)
      return (.loop (word = "until") condition body rs, cs)
    else if word = "for" then
      let cs := skipBlanks rest
      let name := bareWord cs
      if !isName name.toList then wrong "Bad for loop variable" (cs.drop name.length) else
      let cs := skipBlanks (cs.drop name.length)
      let (words, cs) ← match keyword? "in" cs with
        | some cs => do
          let (ws, cs) ← readWords fuel cs
          pure (some ws, cs)
        | none => pure (none, cs)
      let cs := match cs with
        | ';' :: rest => rest
        | cs => cs
      let (body, cs) ← readBody fuel (← keyword "do" cs)
      let (rs, cs) ← readRedirections fuel (← keyword "done" cs)
      return (.each name words body rs, cs)
    else if word = "case" then
      let (w, cs) ← readPieces fuel .word (skipBlanks rest)
      let (arms, cs) ← readArms fuel (← keyword "in" cs)
      let (rs, cs) ← readRedirections fuel cs
      return (.choice w arms rs, cs)
    else if word = "\x7b" then
      let (body, cs) ← readBody fuel rest
      let (rs, cs) ← readRedirections fuel (← keyword "\x7d" cs)
      return (.group body rs, cs)
    else if isKeyword word then unexpected cs
    else match cs with
      | '(' :: rest =>
        let (body, cs) ← readBody fuel rest
        let (rs, cs) ← readRedirections fuel (← closing (skipLines cs))
        return (.subshell body rs, cs)
      | _ =>
        match skipBlanks rest with
        | '(' :: more =>
          if word.isEmpty then unexpected cs else
          let cs ← closing (skipBlanks more)
          if !isName word.toList then wrong "Bad function name" cs else
          let (body, cs) ← readCommand fuel (skipLines cs)
          return (.define word body, cs)
        | _ => readSimple fuel (cs.count '\n') [] [] [] cs

/-- The further parts of a pipeline. -/
def readPipes : Nat → List Char → Reading (List Command × List Char)
  | 0, cs => unexpected cs
  | fuel + 1, cs => do
    let (c, cs) ← readCommand fuel cs
    match skipBlanks cs with
    | '|' :: '|' :: _ => return ([c], cs)
    | '|' :: rest =>
      let (more, cs) ← readPipes fuel (skipLines rest)
      return (c :: more, cs)
    | cs => return ([c], cs)

/-- A pipeline. -/
def readPipeline : Nat → List Char → Reading (Command × List Char)
  | 0, cs => unexpected cs
  | fuel + 1, cs => do
    let cs := skipBlanks cs
    if bareWord cs = "!" then
      let (parts, cs) ← readPipes fuel (cs.drop 1)
      return (.pipeline true parts, cs)
    else
      let (parts, cs) ← readPipes fuel cs
      match parts with
      | [c] => return (c, cs)
      | parts => return (.pipeline false parts, cs)

/-- The further pipelines of a list with `&&` and `||`. -/
def readChain : Nat → Command → List Char → Reading (Command × List Char)
  | 0, _, cs => unexpected cs
  | fuel + 1, first, cs =>
    match skipBlanks cs with
    | '&' :: '&' :: rest => do
      let (second, cs) ← readPipeline fuel (skipLines rest)
      readChain fuel (.both first second) cs
    | '|' :: '|' :: rest => do
      let (second, cs) ← readPipeline fuel (skipLines rest)
      readChain fuel (.either first second) cs
    | cs => return (first, cs)

/-- Commands up to what ends a list; that is the end of the line, too, unless the list
goes through lines. -/
def readList : Nat → Bool → List Char → Reading (List Command × List Char)
  | 0, _, cs => unexpected cs
  | fuel + 1, throughLines, cs => do
    let cs := if throughLines then skipLines cs else skipBlanks cs
    let ended := match cs with
      | [] | '\n' :: _ | ')' :: _ | ';' :: ';' :: _ => true
      | _ => isTerminator (bareWord cs)
    if ended then return ([], cs)
    else
      let (c, cs) ← readPipeline fuel cs
      let (c, cs) ← readChain fuel c cs
      let more (c : Command) (rest : List Char) : Reading (List Command × List Char) := do
        let (more, cs) ← readList fuel throughLines rest
        return (c :: more, cs)
      match skipBlanks cs with
      | ';' :: ';' :: rest => return ([c], ';' :: ';' :: rest)
      | ';' :: rest => more c rest
      | '&' :: rest => more (.background c) rest
      | '\n' :: rest => if throughLines then more c rest else return ([c], '\n' :: rest)
      | cs => return ([c], cs)

/-- Commands of which there has to be one before something else. -/
def readBody : Nat → List Char → Reading (List Command × List Char)
  | 0, cs => unexpected cs
  | fuel + 1, cs => do
    let (body, rest) ← readList fuel true cs
    if body.isEmpty && !rest.isEmpty then unexpected rest else return (body, rest)

end

/-- The commands of the lines before the first one that is wrong, and what is wrong
with that. -/
def readScript : Nat → List Char → List Command × Option SyntaxError
  | 0, _ => ([], none)
  | fuel + 1, cs =>
    match skipLines cs with
    | [] => ([], none)
    | cs => match readList (20 * cs.length + 20) false cs with
      | .error e => ([], some e)
      | .ok (commands, []) => (commands, none)
      | .ok (commands, '\n' :: rest) =>
        let (more, error) := readScript fuel rest
        (commands ++ more, error)
      | .ok (_, rest) => match unexpected rest with
        | .error e => ([], some e)
        | .ok () => ([], none)

/-- **Reads a script.** -/
def Program.read (text : String) : Program :=
  let cs := withTextsInPlace text.toList
  let (commands, error) := readScript (cs.length + 1) cs
  { commands, error, lineEnds := cs.count '\n' }

end Testplan.Script
