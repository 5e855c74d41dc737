import ColorMarks.Shell.Arithmetic
import ColorMarks.Shell.Pattern
import ColorMarks.Shell.Utility

/-!
# Running shell scripts

Words are expanded to marks: characters that remember where they come from. From the marks come fields,
where characters that a parameter brought in may separate them; texts, where nothing separates; and
patterns, where quoted characters stand for themselves. A command that runs out of fuel is blocked, like
one that waits for input that never comes. Like the other modules of the shell, this is outer layer: only
the program uses it.
-/

namespace ColorMarks.Shell

open Act

/-- Where a character of an expanded word comes from. -/
inductive Origin where
  | plain
  | quoted
  /-- From an expansion outside of quotes. -/
  | expanded
  deriving DecidableEq, Repr

/-- A part of an expanded word. -/
inductive Mark where
  | char (c : Char) (origin : Origin)
  /-- Quotes stood here: there is a field, even an empty one. -/
  | quotes
  /-- The border between two arguments. -/
  | gap
  deriving DecidableEq, Repr

namespace Mark

/-- The marks of a text. -/
def ofRaw (origin : Origin) (cs : Raw) : List Mark := cs.map fun c => char c origin

/-- The text of some marks. -/
def text (marks : List Mark) : Raw :=
  marks.filterMap fun
    | char c _ => some c
    | quotes => none
    | gap => some ' '

/-- The pattern of some marks. -/
def pattern (marks : List Mark) : Pattern :=
  Pattern.compile (marks.filterMap fun
    | char c origin => some ⟨c, origin != .quoted⟩
    | quotes => none
    | gap => some ⟨' ', false⟩)

/-- Fields on the way: those before, the current one last character first, and whether it is there. -/
structure Split where
  before : List Raw := []
  current : Raw := []
  isThere : Bool := false
  /-- Whether blanks ended the last field, so that a separator after them ends it too. -/
  isLoose : Bool := false

/-- The current field ended. -/
def Split.close (s : Split) : Split := { before := s.current.reverse :: s.before }

/-- The fields after one more mark. -/
def Split.add (separators : Raw) (s : Split) : Mark → Split
  | quotes => { s with isThere := true }
  | gap => if s.isThere then s.close else s
  | char c origin =>
    if origin == .expanded && separators.contains c then
      if Utility.isSpace c then if s.isThere then { s.close with isLoose := true } else s
      else if s.isLoose && !s.isThere then { s with isLoose := false }
      else s.close
    else { s with current := c :: s.current, isThere := true, isLoose := false }

/-- The fields of some marks. -/
def fields (separators : Raw) (marks : List Mark) : List Raw :=
  let s := marks.foldl (Split.add separators) {}
  (if s.isThere then s.close else s).before.reverse

/-- The marks of the arguments, all in one word or with borders between them. -/
def ofArguments (isQuoted : Bool) (arguments : List Raw) : List Mark :=
  let one (a : Raw) : List Mark :=
    if isQuoted then quotes :: ofRaw .quoted a else ofRaw .expanded a
  match arguments with
  | [] => []
  | a :: rest => one a ++ rest.flatMap fun a => gap :: one a

end Mark

namespace Act

/-- The value of a parameter; a missing one may end the script. -/
def valueOf (name : Raw) : Act Raw := do
  let m ← get
  match m.parameter? name with
  | some v => return v
  | none => if m.isStrict && name != ['!'] then exitWith 2 else return []

/-- The marks of a parameter. -/
def marksOf (isQuoted : Bool) (name : Raw) : Act (List Mark) := do
  let m ← get
  match name with
  | ['@'] => return Mark.ofArguments isQuoted m.arguments
  | ['*'] =>
    if isQuoted then
      let joint := (m.value? "IFS".toList).elim [' '] (·.take 1)
      return Mark.ofRaw .quoted (joint.intercalate m.arguments)
    else return Mark.ofArguments false m.arguments
  | _ => return Mark.ofRaw (if isQuoted then .quoted else .expanded) (← valueOf name)

/-- A text without the line ends at its end and without zeros. -/
def withoutLineEnds (cs : Raw) : Raw :=
  ((cs.filter (· != '\x00')).reverse.dropWhile (· == '\n')).reverse

/-- Runs a loop body; the answer tells whether the loop goes on. -/
def rounded (body : Act Unit) : Act Bool := do
  let m ← get
  let (result, after) := body.runOn m
  set after
  match result with
  | .ok _ => return true
  | .error (.again n) => if n ≤ 1 then return true else throw (.again (n - 1))
  | .error (.stop n) => if n ≤ 1 then return false else throw (.stop (n - 1))
  | .error h => throw h

/-- Runs the body of a function on its arguments. -/
def called (arguments : List Raw) (body : Act Unit) : Act Unit := do
  let m ← get
  let (result, after) := body.runOn { m with arguments, shadowed := [] }
  let after := after.shadowed.foldl (fun m (n, v) => m.putVariable n v) after
  set { after with arguments := m.arguments, shadowed := m.shadowed }
  match result with
  | .error .leave => return ()
  | result => resume result

/-- Runs a command with some variables set for it alone. -/
def withVariables (vs : List (Raw × Raw)) (a : Act Unit) : Act Unit :=
  if vs.isEmpty then a
  else do
    let m ← get
    let (result, after) := a.runOn (vs.foldl (fun m (n, v) => m.setVariable n v) m)
    set (vs.foldl (fun after (n, _) => after.putVariable n (m.value? n)) after)
    resume result

end Act

/-- Whether a word is this text, unquoted. -/
def isText (w : Word) (s : String) : Bool :=
  match w with
  | [.literal cs] => cs == s.toList
  | _ => false

mutual

/-- The marks of a word. -/
def marks : Nat → Bool → Word → Act (List Mark)
  | 0, _, _ => throw .blocked
  | _, _, [] => return []
  | fuel + 1, isQuoted, p :: ps => do
    let ms ← marksOfPiece fuel isQuoted p
    return ms ++ (← marks fuel isQuoted ps)

/-- The marks of a piece of a word. -/
def marksOfPiece : Nat → Bool → Piece → Act (List Mark)
  | 0, _, _ => throw .blocked
  | fuel + 1, isQuoted, p => do
    let origin : Origin := if isQuoted then .quoted else .expanded
    match p with
    | .literal cs => return Mark.ofRaw (if isQuoted then .quoted else .plain) cs
    | .quoted ps =>
      match ps with
      | [.parameter ['@']] => marksOf true ['@']
      | ps => return .quotes :: (← marks fuel true ps)
    | .parameter name => marksOf isQuoted name
    | .length name =>
      let value := Mark.text (← marksOf true name)
      return Mark.ofRaw origin (toString value.length).toList
    | .fallback name rule orEmpty word =>
      let m ← get
      let value := (if name == ['@'] || name == ['*'] then
          if m.arguments.isEmpty then none else some [' ']
        else m.parameter? name).filter fun v => !(orEmpty && v.isEmpty)
      match rule, value with
      | .alternative, some _ => marks fuel isQuoted word
      | .alternative, none => return []
      | _, some _ => marksOf isQuoted name
      | .instead, none => marks fuel isQuoted word
      | .assigned, none =>
        let value := Mark.text (← marks fuel isQuoted word)
        modify (·.setVariable name value)
        return Mark.ofRaw origin value
      | .failure, none => exitWith 2
    | .trimmed name atEnd longest pattern =>
      let p := Mark.pattern (← marks fuel false pattern)
      let value := Mark.text (← marksOf true name)
      return Mark.ofRaw origin
        (if atEnd then Pattern.withoutEnd longest p value else Pattern.withoutStart longest p value)
    | .output script =>
      let (result, written) ← capture (isolate (run fuel script))
      resume result
      modify fun m => { m with innerStatus := some m.status }
      return Mark.ofRaw origin (withoutLineEnds (written.flatMap Prod.snd))
    | .arithmetic expression =>
      let text := Mark.text (← marks fuel true expression)
      match Arithmetic.evaluate? (← get) text with
      | some n => return Mark.ofRaw origin (toString n).toList
      | none => exitWith 2

/-- The fields of some words. -/
def fieldsOf : Nat → List Word → Act (List Raw)
  | 0, _ => throw .blocked
  | _, [] => return []
  | fuel + 1, w :: ws => do
    let ms ← marks fuel false w
    let first := Mark.fields (← get).separators ms
    return first ++ (← fieldsOf fuel ws)

/-- The values of some assignments. -/
def valuesOf : Nat → List (Raw × Word) → Act (List (Raw × Raw))
  | 0, _ => throw .blocked
  | _, [] => return []
  | fuel + 1, (name, w) :: rest => do
    let value := Mark.text (← marks fuel false w)
    return (name, value) :: (← valuesOf fuel rest)

/-- The targets of some redirections. -/
def targetsOf : Nat → List Redirection → Act (List (Nat × Route × Raw))
  | 0, _ => throw .blocked
  | _, [] => return []
  | fuel + 1, .mk stream route w :: rest => do
    let target := Mark.text (← marks fuel false w)
    return (stream, route, target) :: (← targetsOf fuel rest)

/-- Runs a command. -/
def run : Nat → Command → Act Unit
  | 0, _ => throw .blocked
  | fuel + 1, c =>
    match c with
    | .nothing => return ()
    | .simple assignments words => do
      modify fun m => { m with innerStatus := none }
      let fields ← fieldsOf fuel words
      let values ← valuesOf fuel assignments
      match fields with
      | [] => do
        modify fun m => values.foldl (fun m (n, v) => m.setVariable n v) m
        finish ((← get).innerStatus.getD 0)
      | name :: args => withVariables values (call fuel name args)
    | .sequence a b => do
      run fuel a
      run fuel b
    | .both a b => do
      run fuel a
      if (← get).status = 0 then run fuel b
    | .either a b => do
      run fuel a
      if (← get).status ≠ 0 then run fuel b
    | .negated a => do
      run fuel a
      succeed ((← get).status ≠ 0)
    | .pipe a b => pipe (run fuel a) (run fuel b)
    | .subshell a => isolate (run fuel a)
    | .background a => inBackground (run fuel a)
    | .conditional test yes no => do
      run fuel test
      if (← get).status = 0 then run fuel yes
      else
        finish 0
        run fuel no
    | .loop onSuccess test body => do
      run fuel test
      if ((← get).status = 0) = onSuccess then
        if ← rounded (run fuel body) then run fuel (.loop onSuccess test body)
      else finish 0
    | .each name words body => do
      let values ← match words with
        | some ws => fieldsOf fuel ws
        | none => do pure (← get).arguments
      runEach fuel name body values
    | .choice subject branches => do
      let text := Mark.text (← marks fuel false subject)
      finish 0
      runChoice fuel text branches
    | .define name body => do
      modify fun m => { m with functions := (name, body) :: m.functions }
      finish 0
    | .redirected c redirections => do
      let targets ← targetsOf fuel redirections
      match c with
      | .simple [] [w] =>
        if isText w "exec" then
          if targets.any fun (stream, _, _) => stream == 1 then
            modify fun m => { m with closedAt := some m.clock }
          finish 0
        else redirect targets (run fuel c)
      | c => redirect targets (run fuel c)

/-- Runs a command for each value of a variable. -/
def runEach : Nat → Raw → Command → List Raw → Act Unit
  | 0, _, _, _ => throw .blocked
  | _, _, _, [] => return ()
  | fuel + 1, name, body, v :: vs => do
    modify (·.setVariable name v)
    if ← rounded (run fuel body) then runEach fuel name body vs

/-- Runs the first branch with a pattern that matches. -/
def runChoice : Nat → Raw → List (List Word × Command) → Act Unit
  | 0, _, _ => throw .blocked
  | _, _, [] => return ()
  | fuel + 1, text, (patterns, body) :: rest => do
    if ← isMatched fuel text patterns then run fuel body else runChoice fuel text rest

/-- Whether one of some patterns matches. -/
def isMatched : Nat → Raw → List Word → Act Bool
  | 0, _, _ => throw .blocked
  | _, _, [] => return false
  | fuel + 1, text, w :: ws => do
    let p := Mark.pattern (← marks fuel false w)
    if p.fits text then return true else isMatched fuel text ws

/-- Runs what a name stands for on arguments. -/
def call : Nat → Raw → List Raw → Act Unit
  | 0, _, _ => throw .blocked
  | fuel + 1, name, args => do
    match String.ofList name, args with
    | "exec", name :: args =>
      call fuel name args
      throw .exit
    | "exec", [] => finish 0
    | "command", name :: args => call fuel name args
    | "eval", args => runText fuel (Text.joined ' ' args)
    | ".", file :: args =>
      match openFile? (← get) (Utility.path file) with
      | some s =>
        if args.isEmpty then runText fuel (s.coming.flatMap Prod.snd)
        else called args (runText fuel (s.coming.flatMap Prod.snd))
      | none => exitWith 2
    | text, args =>
      match Utility.inner.lookup text with
      | some f => f args
      | none =>
        match (← get).functions.lookup name with
        | some body => called args (run fuel body)
        | none =>
          match Utility.named? name with
          | some f => f args
          | none => finish 127

/-- Runs a text as commands. -/
def runText : Nat → Raw → Act Unit
  | 0, _ => throw .blocked
  | fuel + 1, text =>
    match Command.ofScript? text with
    | some c => run fuel c
    | none => exitWith 2

end

/-- How deep commands and loops may nest, and how many rounds a loop may have. -/
def depth : Nat := 100000

/-- What is written when an action runs on a machine, and when the output ends. -/
def transcript (a : Act Unit) (m : Machine) : Transcript :=
  let (result, after) := a.runOn m
  let isBlocked := match result with
    | .error .blocked => true
    | _ => false
  let segments := after.output.reverse.map fun (time, cs) => (⟨time, Raw.octets cs⟩ : Segment)
  { segments := segments.mergeSort fun a b => a.time ≤ b.time
    ended := after.closedAt <|>
      if isBlocked then none else after.backgroundEnd.map (max after.clock) }

end ColorMarks.Shell
