import Testplan.Script.Shell
/-!
# Expanding words

The pieces of a word become the texts that a command gets: variables give their values,
commands give what they write, and what is not quoted is split at separators
(`expandWords`).  Where one text is asked for, nothing is split (`expandText`).

How commands give what they write is left to whoever expands, as `output`.
-/
namespace Testplan.Script

/-- The value of a variable; a demanding shell ends if there is none. -/
def valueOf (name : String) : Act String := do
  let sh ← get
  match valueOf? sh name with
  | some v => return v
  | none =>
    if sh.demanding && name ≠ "@" && name ≠ "*" then fail (name ++ ": parameter not set")
    else return ""

/-- The value of an arithmetic expression; one assignment may stand at its start. -/
def arithmetic (s : String) : Act Int := do
  let sh ← get
  let value (name : String) : Arithmetic Int :=
    match (sh.vars.get? name).map Text.strip with
    | none | some "" => return 0
    | some v => match v.toInt? with
      | some n => return n
      | none => throw (.number v)
  let tokens := (tokensOf (s.length + 1) s.toList).getD [.number 0, .sign ""]
  let (target, tokens) : Option (String × String) × List Token := match tokens with
    | .name x :: .sign "=" :: rest => (some (x, ""), rest)
    | .name x :: .sign op :: .sign "=" :: rest => (some (x, op), rest)
    | ts => (none, ts)
  let result : Arithmetic Int := do
    let n ← evaluate value tokens
    match target with
    | none | some (_, "") => return n
    | some (x, op) => applyBinary op (← value x) n
  match result with
  | .ok n =>
    for (x, _) in target do assign x (toString n)
    return n
  | .error (.number v) => fail ("Illegal number: " ++ v)
  | .error (.expression problem) =>
    fail ("arithmetic expression: " ++ problem ++ ": \"" ++ s ++ "\"")

/-- A piece as if it were quoted. -/
def Piece.asQuoted : Piece → Piece
  | value n _ => .value n true
  | substitute n h e w _ => .substitute n h e w true
  | trimmed n e l w _ => .trimmed n e l w true
  | size n _ => .size n true
  | output b _ => .output b true
  | arithmetic e _ => .arithmetic e true
  | text s q => .text s q

mutual

/-- Expands pieces, adding to the texts made so far. -/
def expandPieces (output : List Command → Act String) : Nat → Fields → List Piece → Act Fields
  | 0, f, _ => return f
  | _, f, [] => return f
  | fuel + 1, f, p :: rest => do
    let apart := separators (← get)
    let value (s : String) (quoted : Bool) : Fields :=
      if quoted then f.add s true else f.addSplit apart s
    let f ← match p with
      | .text s quoted => pure (f.add s quoted)
      | .value name quoted => do
        let arguments := (← get).arguments
        if name = "@" && quoted then pure (f.addEach arguments)
        else if (name = "@" || name = "*") && !quoted then
          pure (arguments.foldl (fun f s => (f.close).addSplit apart s) f)
        else pure (value (← valueOf name) quoted)
      | .substitute name how orEmpty word quoted => do
        let current := (valueOf? (← get) name).filter fun v => !(orEmpty && v.isEmpty)
        match how, current with
        | .alternative, some _ => expandPieces output fuel f word
        | .alternative, none => pure f
        | _, some v => pure (value v quoted)
        | .fallback, none => expandPieces output fuel f word
        | .assign, none => do
          let s ← expandText output fuel word
          assign name s
          pure (value s quoted)
        | .demand, none => do
          let s ← expandText output fuel word
          let usual := if orEmpty then "parameter not set or null" else "parameter not set"
          fail (name ++ ": " ++ (if word.isEmpty then usual else s))
      | .trimmed name atEnd longest pattern quoted => do
        let m ← expandMarked output fuel pattern
        let s ← valueOf name
        pure (value (trim atEnd longest (globOf (m.length + 1) m) s) quoted)
      | .size name quoted => do pure (value (toString (← valueOf name).length) quoted)
      | .output body quoted => do
        let s ← output body
        pure (value (String.ofList (Text.dropEndWhile (· = '\n') s.toList)) quoted)
      | .arithmetic expression quoted => do
        let s ← expandText output fuel expression
        pure (value (toString (← arithmetic s)) quoted)
    expandPieces output fuel f rest

/-- Expands pieces to one text with marks. -/
def expandMarked (output : List Command → Act String) : Nat → List Piece → Act Marked
  | 0, _ => return []
  | fuel + 1, ps => do
    let f ← expandPieces output fuel {} (ps.map Piece.asQuoted)
    return (f.toList.intersperse [(' ', true)]).flatten

/-- **Expands pieces to one text.** -/
def expandText (output : List Command → Act String) : Nat → List Piece → Act String
  | 0, _ => return ""
  | fuel + 1, ps => return plainText (← expandMarked output fuel ps)

end

/-- **Expands words to texts.** -/
def expandWords (output : List Command → Act String) (fuel : Nat) :
    List (List Piece) → Act (List String)
  | [] => return []
  | w :: rest => do
    let f ← expandPieces output fuel {} w
    let sh ← get
    let more ← expandWords output fuel rest
    return f.toList.flatMap (globbed sh) ++ more

/-- The patterns that words stand for. -/
def expandPatterns (output : List Command → Act String) (fuel : Nat) :
    List (List Piece) → Act (List (List Glob))
  | [] => return []
  | w :: rest => do
    let m ← expandMarked output fuel w
    return globOf (m.length + 1) m :: (← expandPatterns output fuel rest)

/-- Gives variables their values, and says which had what value before. -/
def assignAll (output : List Command → Act String) (fuel : Nat) :
    List (String × List Piece) → Act (List (String × Option String))
  | [] => return []
  | (x, w) :: rest => do
    let v ← expandText output fuel w
    let before := (← get).vars.get? x
    assign x v
    return (x, before) :: (← assignAll output fuel rest)

/-! ## Redirections -/

/-- A redirection changes the input. -/
def Redirection.ofInput : Redirection → Bool
  | .to descriptor direction _ => descriptor = 0 && (direction = .input || direction = .here)

/-- Sends descriptors where redirections say; tells whether that can be done. -/
def redirect (output : List Command → Act String) (fuel : Nat) : List Redirection → Act Bool
  | [] => return true
  | .to descriptor direction target :: rest => do
    let path ← expandText output fuel target
    let sh ← get
    let send (s : Sink) : Act Bool := do
      modify fun sh => { sh with sinks := (descriptor, s) :: sh.sinks }
      redirect output fuel rest
    match direction with
    | .here =>
      set { sh with input := bytesOf path }
      redirect output fuel rest
    | .input =>
      match if path = "/dev/null" then some "" else sh.files.read? sh.cwd path with
      | some text =>
        set { sh with input := bytesOf text }
        redirect output fuel rest
      | none =>
        complainHere ("cannot open " ++ path ++ ": No such file")
        return false
    | .duplicate =>
      if path = "-" then send .nowhere
      else if path = "0" || descriptor = 0 then redirect output fuel rest
      else match path.toNat?.bind fun n => sh.sinks.lookup n with
        | some s => send s
        | none =>
          complainHere (path ++ ": Bad file descriptor")
          return false
    | .output | .append =>
      if path = "/dev/null" then send .nowhere
      else if path = "/dev/stdout" then send ((sh.sinks.lookup 1).getD .nowhere)
      else if path = "/dev/stderr" then send ((sh.sinks.lookup 2).getD .nowhere)
      else
        let old := if direction = .append then (sh.files.read? sh.cwd path).getD "" else ""
        match sh.files.write? sh.cwd path old, sh.files.locate? sh.cwd path with
        | some files, some p =>
          set { sh with files }
          send (.file p)
        | _, _ =>
          let problem := if sh.files.isDirectoryPath sh.cwd path then "Is a directory"
            else "Directory nonexistent"
          complainHere ("cannot create " ++ path ++ ": " ++ problem)
          return false

/-- Runs an action and gives the descriptors back, also if it ends early. -/
def givingBack {α : Type} (rs : List Redirection) (act : Act α) : Act α := do
  let before ← get
  let undo : Act Unit := modify fun sh => { sh with
    sinks := before.sinks
    input := if rs.any Redirection.ofInput then before.input else sh.input }
  tryCatch (do
    let a ← act
    undo
    return a) fun jump => do
      undo
      throw jump

/-- Runs an action with redirections; the status is 2 if one cannot be made. -/
def redirected (output : List Command → Act String) (fuel : Nat) (rs : List Redirection)
    (act : Act Nat) : Act Nat :=
  if rs.isEmpty then act
  else givingBack rs do
    if ← redirect output fuel rs then act else return 2

end Testplan.Script
