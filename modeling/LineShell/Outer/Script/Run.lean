import LineShell.Outer.Script.Arithmetic
import LineShell.Outer.Script.Child
import LineShell.Outer.Script.CommandName
import LineShell.Outer.Script.Descriptor
import LineShell.Outer.Script.Parameter
import LineShell.Outer.Script.Startup

/-! Scripts carried out statement by statement. A number of steps bounds how deep and how long a
script can run; one that needs more counts as not finished. -/

namespace LineShell.Script.Process

/-- The variables that a script has where it is given no others. -/
def usualVariables : Variables :=
  [("PATH", "/usr/local/sbin:/usr/local/bin:/usr/sbin:/usr/bin:/sbin:/bin"), ("IFS", " \t\n"),
   ("OPTIND", "1"), ("PS1", "# "), ("PS2", "> "), ("PS4", "+ ")]

/-- The value of a variable in an expression. -/
def numberOf (p : Process) (name : Text) : Except Text Int :=
  match p.parameter? name with
  | none | some [] => .ok 0
  | some t =>
    match Text.integer? (Text.trim t) with
    | some n => .ok n
    | none => .error ("Illegal number: " ++ t)

/-- The trace of a command, if it is asked for. -/
def trace (p : Process) (assigned : List (Text × Text)) (words : List Text) : Process :=
  if !p.options.contains 'x' then p
  else
    let shown := assigned.map (fun (name, value) => name ++ '=' :: value) ++ words
    p.warn ("+ " ++ Text.joined [' '] shown)

/-- Ends a script that is to end at a failure, if the statement failed and nothing looks at that. -/
def strict (p : Process) : Process :=
  if p.goesOn && p.options.contains 'e' && !p.tested && p.status ≠ 0 then
    { p with flow := .exited }
  else p

/-- The process after a function, with the variables that it had for itself given back. -/
def backFrom (q p : Process) : Process :=
  let q := (q.outer.getD []).foldl (fun q (name, value) => q.keep name value) q
  let flow := match q.flow with
    | .returning | .leaving _ | .again _ => .onward
    | flow => flow
  { q with parameters := p.parameters, outer := p.outer, loops := p.loops, flow }

/-- The variables of some names as another process has them. -/
def withVariables (q p : Process) (names : List Text) : Process :=
  names.foldl (fun q name => q.keep name (p.environment.get? name)) q

/-- The process after the body of a loop, and whether there is another round. -/
def afterBody (p : Process) : Process × Bool :=
  match p.flow with
  | .onward => (p, true)
  | .again 1 => ({ p with flow := .onward }, true)
  | .again (k + 1) => ({ p with flow := .again k }, false)
  | .leaving 1 => ({ p with flow := .onward }, false)
  | .leaving (k + 1) => ({ p with flow := .leaving k }, false)
  | _ => (p, false)

mutual

/-- A word expanded to fields. Values are split if `split` says so. -/
def fields : Nat → Bool → Process → Word → Fields → Process × Fields
  | 0, _, p, _, f => ({ p with flow := .unfinished }, f)
  | _, _, p, [], f => (p, f)
  | n + 1, split, p, part :: rest, f =>
    let add (quoted : Bool) (p : Process) (t : Text) : Process × Fields :=
      fields n split p rest
        (if quoted || !split then f.add quoted t
         else f.addSplit p.separators false (Field.ofText false t))
    match part with
    | .literal quoted t => fields n split p rest (f.add quoted t)
    | .parameter quoted t =>
      let (p, f) := parameter n split p quoted t f
      fields n split p rest f
    | .arithmetic quoted e =>
      let (p, e) := oneText n p ((Lexeme.document e).toOption.getD [])
      match Arithmetic.evaluate p.numberOf e with
      | .error m => (p.giveUp m, f)
      | .ok (value, given) =>
        let shown (i : Int) : Text :=
          if i < 0 then '-' :: Text.decimal i.natAbs else Text.decimal i.natAbs
        let p := given.reverse.foldl (fun p (name, i) => p.assign name (shown i)) p
        add quoted p (shown value)
    | .output quoted commands =>
      let (p, bytes) := outputOf n p (.inl commands)
      let t := ((Text.lossy (bytes.filter (· ≠ 0))).reverse.dropWhile (· = '\n')).reverse
      add quoted p t

/-- A parameter expanded. -/
def parameter : Nat → Bool → Process → Bool → Text → Fields → Process × Fields
  | 0, _, p, _, _, f => ({ p with flow := .unfinished }, f)
  | n + 1, split, p, quoted, t, f =>
    let value (p : Process) (t : Text) : Process × Fields :=
      (p, if quoted || !split then f.add quoted t
        else f.addSplit p.separators false (Field.ofText false t))
    if t.head? = some '#' && t.length > 1 then
      let size := (Text.encode ((p.parameter? (t.drop 1)).getD [])).length
      value p (Text.decimal size)
    else
      let (name, rest) := parameterName t
      let known := p.parameter? name
      let isUnset := match name with
        | ['@'] | ['*'] => p.parameters.isEmpty
        | _ => known.isNone
      let lacks (evenEmpty : Bool) : Bool := isUnset || evenEmpty && known = some []
      let own (p : Process) : Process × Fields :=
        match name with
        | ['@'] =>
          if !split then (p, f.add quoted (Text.joined [' '] p.parameters))
          else if quoted then (p, f.addEach p.parameters)
          else (p, f.addEachSplit p.separators p.parameters)
        | ['*'] =>
          let joined := Text.joined (p.separators.take 1) p.parameters
          if quoted || !split then (p, f.add quoted joined)
          else (p, f.addEachSplit p.separators p.parameters)
        | _ => value p (known.getD [])
      let word (p : Process) (w : Text) : Process × Fields :=
        let (p, g) := fields n false p (bracedWord quoted (w.length + 1) w) {}
        let marks := (g.current.getD []).map fun m =>
          { m with quoted := quoted || m.quoted }
        (p, if quoted || !split || marks.isEmpty && g.current.isSome then f.addMarks marks
          else f.addSplit p.separators false marks)
      match Modifier.ofText rest with
      | .plain =>
        if name.isEmpty || !rest.isEmpty then (p.giveUp "Bad substitution", f)
        else if isUnset && p.options.contains 'u' && name ≠ ['@'] && name ≠ ['*'] then
          (p.giveUp (name ++ ": parameter not set"), f)
        else own p
      | .default evenEmpty w => if lacks evenEmpty then word p w else own p
      | .alternative evenEmpty w => if lacks evenEmpty then (p, f) else word p w
      | .assigned evenEmpty w =>
        if !lacks evenEmpty then own p
        else
          let (p, t) := oneText n p (bracedWord quoted (w.length + 1) w)
          value (p.assign name t) t
      | .required evenEmpty w =>
        if !lacks evenEmpty then own p
        else
          let (p, t) := oneText n p (bracedWord quoted (w.length + 1) w)
          let what : Text := if !w.isEmpty then t
            else if evenEmpty then "parameter not set or null" else "parameter not set"
          (p.giveUp (name ++ ": " ++ what), f)
      | .start longest w =>
        let (p, g) := fields n false p (bracedWord false (w.length + 1) w) {}
        value p (withoutStart longest (Field.pattern (g.current.getD [])) (known.getD []))
      | .finish longest w =>
        let (p, g) := fields n false p (bracedWord false (w.length + 1) w) {}
        value p (withoutEnd longest (Field.pattern (g.current.getD [])) (known.getD []))

/-- What commands or a statement write, without letting it out. -/
def outputOf : Nat → Process → Text ⊕ Statement → Process × Text.Bytes
  | 0, p, _ => ({ p with flow := .unfinished }, [])
  | n + 1, p, s =>
    let begun := { p.branch with written := [], out := .stream .out, status := 0 }
    let child := match s with
      | .inl t => runInput n { begun with tested := false } [] (lexemes (max p.line 1) t)
      | .inr s => run n begun s
    let child := atExit n child
    let errors := child.written.filter fun (_, t, _) => t = .err
    let q := p.rejoined { child with written := errors ++ p.written }
    ({ q with status := p.status, answered := q.status }, child.streamBytes .out)

/-- Words expanded one after another, to the files that they match. -/
def words : Nat → Process → List Word → Process × List Text
  | 0, p, _ => ({ p with flow := .unfinished }, [])
  | _, p, [] => (p, [])
  | n + 1, p, w :: rest =>
    let (p, f) := fields n true p (homeFor (p.environment.get? "HOME") w) {}
    let expanded := if p.options.contains 'f' then f.toList.map Field.text
      else f.toList.flatMap (Field.expand p.tree p.cwd)
    if !p.goesOn then (p, expanded)
    else
      let (p, more) := words n p rest
      (p, expanded ++ more)

/-- A word expanded to one text. -/
def oneText : Nat → Process → Word → Process × Text
  | 0, p, _ => ({ p with flow := .unfinished }, [])
  | n + 1, p, w =>
    let (p, f) := fields n false p (homeFor (p.environment.get? "HOME") w) {}
    (p, Field.text (f.current.getD []))

/-- Redirections one after another. -/
def redirectAll : Nat → Process → List Redirect → Except (Process × Text) Process
  | 0, p, _ => .ok { p with flow := .unfinished }
  | _, p, [] => .ok p
  | n + 1, p, r :: rest =>
    let (p, target) := match r with
      | .write _ _ w => oneText n p w
      | .duplicate _ w => oneText n p w
      | .read w => oneText n p w
      | .document w => oneText n p w
    if !p.goesOn then .ok p
    else match p.redirect r target with
    | .ok p => redirectAll n p rest
    | .error m => .error (p, m)

/-- The values of assignments one after another. -/
def assignments : Nat → Process → List (Text × Word) → Process × List (Text × Text)
  | 0, p, _ => ({ p with flow := .unfinished }, [])
  | _, p, [] => (p, [])
  | n + 1, p, (name, w) :: rest =>
    let (p, value) := oneText n p w
    if !p.goesOn then (p, [])
    else
      let (p, more) := assignments n (p.assign name value) rest
      (p, (name, value) :: more)

/-- A program of the system in a process of its own. -/
def start : Nat → Process → Image → Process
  | 0, p, _ => { p with flow := .unfinished }
  | n + 1, p, image =>
    match image.resident with
    | .utility tool =>
      let p := { p with name := image.called }
      if tool = "env".toList then changed n p image.called image.arguments
      else p.utility tool image.called image.arguments
    | .shell =>
      let p := { p with
        name := image.called, line := 0, parameters := []
        environment := p.environment.filter (·.1 ≠ "IFS".toList)
        shared := p.environment.map Prod.fst }
      match Startup.ofArguments image.called image.arguments with
      | .error m => p.giveUp m
      | .ok s =>
        let begun := { p with name := s.name, options := s.options, parameters := s.parameters }
        match s.source with
        | .text t => runText n begun t
        | .input => runText n { begun with input := [] } (Text.lossy p.input)
        | .file path =>
          match p.tree.read (p.place path) with
          | .ok bytes => runText n begun (Text.lossy bytes)
          | .error e => if e = .os .isDirectory then p else p.giveUp (unreadable path e)

/-- A program with other variables. -/
def changed : Nat → Process → Text → List Text → Process
  | 0, p, _, _ => { p with flow := .unfinished }
  | n + 1, p, called, arguments =>
    match arguments with
    | ['-', 'i'] :: rest | ['-'] :: rest => changed n { p with environment := [] } called rest
    | ['-', 'u'] :: name :: rest => changed n (p.keep name none) called rest
    | ['-', '-'] :: rest => changed n p called rest
    | [] =>
      (p.withStatus 0).writeTo p.out (Text.encode
        (p.environment.flatMap fun (name, value) => name ++ '=' :: value ++ ['\n']))
    | ('-' :: 'S' :: split) :: rest => changed n p called (Text.words split ++ rest)
    | a :: rest =>
      if a.contains '=' then
        let value := (a.dropWhile (· ≠ '=')).drop 1
        changed n (p.keep (a.takeWhile (· ≠ '=')) (some value)) called rest
      else
        match Image.find true p.tree p.cwd (p.environment.get? "PATH") a rest with
        | .ok image => start n p image
        | .error e =>
          let p := p.warn (called ++ ": '" ++ a ++ "': " ++ e.sentence)
          if e ≠ .noEntry then p.withStatus 126
          else if a.any Text.isBlank then
            (p.warn (called ++ ": use -[v]S to pass options in shebang lines")).withStatus 127
          else p.withStatus 127

/-- A program by its name, in a process of its own. Complaints about it begin with the label. -/
def runProgram : Nat → Process → Text → Text → List Text → Process
  | 0, p, _, _, _ => { p with flow := .unfinished }
  | n + 1, p, label, name, arguments =>
    match p.commandPath name with
    | .error e => p.complain (label ++ name ++ ": " ++ (notStarted e).1) 127
    | .ok path =>
      let begun := p.fresh
      let image := Image.of p.tree p.cwd Image.depth path name arguments
      match Image.orShell true path arguments image with
      | .ok image => p.waited (start n begun image)
      | .error e =>
        let (words, status) := notStarted e
        p.complain (label ++ name ++ ": " ++ words) status

/-- A script to its end, with what is to be done there. -/
def runText : Nat → Process → Text → Process
  | 0, p, _ => { p with flow := .unfinished }
  | n + 1, p, t =>
    let p := { p with environment := p.environment ++ usualVariables }
    atExit n (runInput n p [] (lexemes 1 t))

/-- The end of a process, with what is to be done there. -/
def atExit : Nat → Process → Process
  | 0, p => { p with flow := .unfinished }
  | n + 1, p =>
    if p.flow matches .killed _ | .unfinished then p
    else match p.traps.lookup 0 with
      | none => p
      | some action =>
        act n { p with flow := .onward, traps := p.traps.filter (·.1 ≠ 0) } action

/-- Lines of a script one after another. Complaints about them begin with the label. -/
def runInput : Nat → Process → Text → Reading.Input → Process
  | 0, p, _, _ => { p with flow := .unfinished }
  | n + 1, p, label, input =>
    if !p.goesOn || Reading.atFinish input then p
    else match Reading.line input.length input with
      | .error fault =>
        { p with line := fault.line }.giveUp (label ++ "Syntax error: " ++ fault.message)
      | .ok (s, rest) =>
        let p := if p.options.contains 'n' then p else run n p s
        runInput n p label rest

/-- The action of a trap. The status is its own only if it ends the script. -/
def act : Nat → Process → Text → Process
  | 0, p, _ => { p with flow := .unfinished }
  | n + 1, p, action =>
    let q := runInput n p [] (lexemes 1 action)
    if q.goesOn then q.withStatus p.status else q

/-- The actions of the signals that have come in. -/
def attend : Nat → Process → Process
  | 0, p => { p with flow := .unfinished }
  | n + 1, p =>
    match p.goesOn && !p.inner, p.pending with
    | true, signal :: rest =>
      attend n (act n { p with pending := rest } ((p.traps.lookup signal).getD []))
    | _, _ => p

/-- The commands of a file in the script itself. -/
def source : Nat → Process → List Text → Process
  | 0, p, _ => { p with flow := .unfinished }
  | n + 1, p, arguments =>
    match arguments with
    | [] => p.withStatus 2
    | file :: _ =>
      let candidates := if file.contains '/' then [file]
        else p.searchPath.map (inDirectory · file)
      match candidates.find? fun c => p.tree.isThere (p.place c) with
      | none =>
        if file.contains '/' then p.giveUp (".: cannot open " ++ file ++ ": No such file")
        else p.giveUp (".: " ++ file ++ ": not found")
      | some path =>
        match p.tree.read (p.place path) with
        | .error e =>
          if e = .os .isDirectory then p.withStatus 0 else p.giveUp (".: " ++ unreadable path e)
        | .ok bytes =>
          let q := runInput n (p.withStatus 0) [] (lexemes 1 (Text.lossy bytes))
          if q.flow = .returning then { q with flow := .onward } else q

/-- A command by its name that is no function. -/
def runPlain : Nat → Process → Text → List Text → Process
  | 0, p, _, _ => { p with flow := .unfinished }
  | n + 1, p, name, arguments =>
    let is (s : String) : Bool := name = s.toList
    if is "eval" then
      let t := Text.joined [' '] arguments
      runInput n (p.withStatus 0) "eval: " (lexemes 1 t)
    else if is "." then source n p arguments
    else if is "exec" then
      match arguments with
      | [] => p.withStatus 0
      | name :: arguments =>
        let q := runProgram n p "exec: " name arguments
        if q.goesOn then { q with flow := .exited, traps := [] } else q
    else if is "type" then p.type arguments
    else if is "command" then
      match arguments with
      | ['-', 'v'] :: names =>
        match (names.head?.bind p.kindOf) with
        | some (_, shown) => p.say name (Text.encode (shown ++ ['\n']))
        | none => p.withStatus (if names.isEmpty then 0 else 127)
      | ['-', 'V'] :: names => p.type (names.take 1)
      | ['-', 'p'] :: name :: rest => runPlain n p name rest
      | name :: rest => runPlain n p name rest
      | [] => p.withStatus 0
    else match p.builtIn? name arguments with
      | some p => p
      | none => runProgram n p [] name arguments

/-- A command by its name, with its words and redirections expanded. -/
def runCommand : Nat → Process → Text → List Text → Process
  | 0, p, _, _ => { p with flow := .unfinished }
  | n + 1, p, name, arguments =>
    match if isSpecial name then none else p.functions.lookup name with
    | some body =>
      backFrom (run n { p with parameters := arguments, outer := some [], loops := 0 } body) p
    | none => runPlain n p name arguments

/-- A command of words, assignments and redirections. -/
def simple : Nat → Process → List (Text × Word) → List Word → List Redirect → Process
  | 0, p, _, _, _ => { p with flow := .unfinished }
  | n + 1, p, assigned, ws, redirects =>
    let (p, arguments) := words n { p with answered := 0 } ws
    if !p.goesOn then p
    else match redirectAll n p redirects with
    | .error (q, m) =>
      let p := (q.redirectedBack redirects p).complain m 2
      if arguments.head?.any isSpecial then { p with flow := .exited } else p
    | .ok q =>
      let (q, values) := assignments n q assigned
      if !q.goesOn then q.redirectedBack redirects p
      else
        let q := { (({ q with err := p.err }).trace values arguments) with err := q.err }
        match arguments with
        | [] => (q.withStatus q.answered).redirectedBack redirects p
        | name :: arguments =>
          let given := assigned.map (·.1)
          let done := runCommand n { q with shared := given ++ q.shared } name arguments
          let done := if isSpecial name then done else done.withVariables p given
          let kept := done.shared.filter fun k => p.shared.contains k || !given.contains k
          let done := { done with shared := kept }
          let persists := name = "exec".toList && arguments.isEmpty
          if persists then done else attend n (done.redirectedBack redirects p)

/-- The body of a loop for each of some values. -/
def forEach : Nat → Process → Text → List Text → Statement → Process
  | 0, p, _, _, _ => { p with flow := .unfinished }
  | _, p, _, [], _ => p
  | n + 1, p, name, value :: rest, body =>
    match (run n (p.assign name value) body).afterBody with
    | (p, true) => forEach n p name rest body
    | (p, false) => p

/-- Whether one of some patterns matches a text. -/
def matchesAny : Nat → Process → List Word → Text → Process × Bool
  | 0, p, _, _ => ({ p with flow := .unfinished }, false)
  | _, p, [], _ => (p, false)
  | n + 1, p, w :: rest, subject =>
    let (p, f) := fields n false p (homeFor (p.environment.get? "HOME") w) {}
    if fits (Field.pattern (f.current.getD [])) subject then (p, true)
    else matchesAny n p rest subject

/-- The first arm that matches. -/
def choose : Nat → Process → Text → Statement → Process
  | 0, p, _, _ => { p with flow := .unfinished }
  | n + 1, p, subject, arms =>
    match arms with
    | .arm patterns body others =>
      let (p, found) := matchesAny n p patterns subject
      if !found then choose n p subject others
      else if body = .nothing then p.withStatus 0
      else run n p body
    | _ => p.withStatus 0

/-- A statement whose failure is looked at. -/
def runTested : Nat → Process → Statement → Process
  | 0, p, _ => { p with flow := .unfinished }
  | n + 1, p, s => { run n { p with tested := true } s with tested := p.tested }

/-- A loop with a test in front of each round. The status is that of the last body. -/
def loop : Nat → Process → Bool → Statement → Statement → Nat → Process
  | 0, p, _, _, _, _ => { p with flow := .unfinished }
  | n + 1, p, asLong, test, body, status =>
    let p := runTested n p test
    if !p.goesOn then (p.afterBody).1
    else if (p.status = 0) ≠ asLong then p.withStatus status
    else
      match (run n p body).afterBody with
      | (p, true) => loop n p asLong test body p.status
      | (p, false) => p

/-- A statement carried out. -/
def run : Nat → Process → Statement → Process
  | 0, p, _ => { p with flow := .unfinished }
  | n + 1, p, s =>
    if !p.goesOn then p
    else match s with
    | .nothing => p
    | .simple line assigned ws redirects =>
      (simple n { p with line } assigned ws redirects).strict
    | .sequence a b => run n (run n p a) b
    | .whenDone a b =>
      let p := runTested n p a
      if p.goesOn && p.status = 0 then run n p b else p
    | .unlessDone a b =>
      let p := runTested n p a
      if p.goesOn && p.status ≠ 0 then run n p b else p
    | .negated a =>
      let p := runTested n p a
      if p.goesOn then p.withStatus (if p.status = 0 then 1 else 0) else p
    | .background a =>
      let child := atExit n
        (run n { p.branch with deadline := none, input := [], tested := false } a)
      let holdsOut := p.out = .stream .out || p.err = .stream .out
      let holdsErr := p.out = .stream .err || p.err = .stream .err
      child.pending.foldl receive
        { p with
          tree := child.tree, written := child.written, status := 0
          heldOut := if holdsOut then max p.heldOut child.now else p.heldOut
          heldErr := if holdsErr then max p.heldErr child.now else p.heldErr
          signalled := child.signalled }
    | .piped a b =>
      let (p, bytes) := outputOf n p (.inr a)
      let child := atExit n (run n { p.branch with input := bytes } b)
      (attend n { p.rejoined child with input := p.input }).strict
    | .conditional test yes no =>
      let p := runTested n p test
      if !p.goesOn then p
      else if p.status = 0 then run n p yes
      else if no = .nothing then p.withStatus 0
      else run n p no
    | .repeated asLong test body =>
      let q := loop n { p with loops := p.loops + 1 } asLong test body 0
      { q with loops := p.loops }
    | .each name items body =>
      let (p, values) := match items with
        | some ws => words n p ws
        | none => (p, p.parameters)
      if !p.goesOn then p
      else
        let p := if values.isEmpty then p.withStatus 0 else p
        let q := forEach n { p with loops := p.loops + 1 } name values body
        { q with loops := p.loops }
    | .choice subject arms =>
      let (p, t) := oneText n p subject
      if p.goesOn then choose n p t arms else p
    | .arm _ body _ => run n p body
    | .apart body => (attend n (p.rejoined (atExit n (run n p.branch body)))).strict
    | .function name body =>
      { p.withStatus 0 with functions := (name, body) :: p.functions }
    | .redirected line body redirects =>
      match redirectAll n { p with line } redirects with
      | .ok q => (run n q body).redirectedBack redirects p
      | .error (q, m) => (q.redirectedBack redirects p).complain m 2

end

end LineShell.Script.Process
