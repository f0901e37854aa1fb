import PromptTemplate.Text.Basic

/-!
# Command/Arguments — the arguments of the command line

    inputs [FILE]
    render [FILE] [--values FILE] [-m|--model FILE] [-e|--existing FILE] [-s|--sentinel TEXT]
    decode [FILE]

An option takes its value from behind `=`, or behind its letter, or from the next argument unless
that looks like an option. No option is given twice, no file has an empty name, and existing
content needs a model. Everything behind `--` is the name of a file. The flag `-v` may stand
anywhere.
-/

namespace PromptTemplate.Command

inductive Action
  | inputs
  | render
  | decode
deriving DecidableEq, Repr

def Action.ofName? (t : Text) : Option Action :=
  if t = "inputs".toList then some .inputs
  else if t = "render".toList then some .render
  else if t = "decode".toList then some .decode
  else none

/-- Why the arguments ask for no action. -/
inductive Usage
  | help
  | invalid
deriving DecidableEq, Repr

inductive Setting
  | values
  | model
  | existing
  | sentinel
deriving DecidableEq, Repr

namespace Setting

def ofLong? (t : Text) : Option Setting :=
  if t = "values".toList then some values
  else if t = "model".toList then some model
  else if t = "existing".toList then some existing
  else if t = "sentinel".toList then some sentinel
  else none

def ofLetter? : Char → Option Setting
  | 'm' => some model
  | 'e' => some existing
  | 's' => some sentinel
  | _ => none

/-- Whether the value names a file. -/
def isFile : Setting → Bool
  | sentinel => false
  | _ => true

end Setting

structure Arguments where
  action : Action
  verbose : Bool
  input : Option Text
  values : Option Text
  model : Option Text
  existing : Option Text
  sentinel : Option Text
deriving DecidableEq, Repr

namespace Arguments

def start (action : Action) : Arguments := ⟨action, false, none, none, none, none, none⟩

def get (a : Arguments) : Setting → Option Text
  | .values => a.values
  | .model => a.model
  | .existing => a.existing
  | .sentinel => a.sentinel

def put (a : Arguments) (t : Text) : Setting → Arguments
  | .values => { a with values := some t }
  | .model => { a with model := some t }
  | .existing => { a with existing := some t }
  | .sentinel => { a with sentinel := some t }

/-- Gives a setting its value. -/
def set (a : Arguments) (s : Setting) (t : Text) : Except Usage Arguments :=
  if a.action = .render ∧ (a.get s).isNone ∧ !(s.isFile && t.isEmpty) then .ok (a.put t s)
  else .error .invalid

/-- Names the file to read. -/
def setInput (a : Arguments) (t : Text) : Except Usage Arguments :=
  if a.input.isNone ∧ !t.isEmpty then .ok { a with input := some t } else .error .invalid

def setVerbose (a : Arguments) : Except Usage Arguments :=
  if a.verbose then .error .invalid else .ok { a with verbose := true }

end Arguments

/-- Whether an argument cannot be the value of an option before it. -/
def looksLikeOption : Text → Bool
  | '-' :: _ :: _ => true
  | _ => false

/-- Sets a setting to the next argument. -/
def setNext (a : Arguments) (s : Setting) : List Text → Except Usage (Arguments × List Text)
  | [] => .error .invalid
  | t :: rest => if looksLikeOption t then .error .invalid else (a.set s t).map (·, rest)

/-- An option `--name` or `--name=value`, without its two dashes. -/
def long (a : Arguments) (t : Text) (rest : List Text) :
    Except Usage (Arguments × List Text) :=
  let name := t.takeWhile (· != '=')
  match t.dropWhile (· != '=') with
  | [] =>
    if name = "verbose".toList then a.setVerbose.map (·, rest)
    else if name = "help".toList then .error .help
    else
      match Setting.ofLong? name with
      | some s => setNext a s rest
      | none => .error .invalid
  | _ :: value =>
    match Setting.ofLong? name with
    | some s => (a.set s value).map (·, rest)
    | none => .error .invalid

/-- Letters behind one dash: flags, and at most one setting, whose value is what follows it. -/
def letters (a : Arguments) : (t : Text) → (rest : List Text) →
    Except Usage (Arguments × List Text)
  | [], rest => .ok (a, rest)
  | c :: t, rest =>
    if c = 'v' then
      match a.setVerbose with
      | .ok a => letters a t rest
      | .error u => .error u
    else if c = 'h' then .error .help
    else
      match Setting.ofLetter? c, t with
      | some s, [] => setNext a s rest
      | some s, '=' :: value => (a.set s value).map (·, rest)
      | some s, value => (a.set s value).map (·, rest)
      | none, _ => .error .invalid

/-- Arguments that are all files. -/
def files (a : Arguments) : List Text → Except Usage Arguments
  | [] => .ok a
  | t :: rest =>
    match a.setInput t with
    | .ok a => files a rest
    | .error u => .error u

/-- One argument behind the action. -/
def argument (a : Arguments) (t : Text) (rest : List Text) :
    Except Usage (Arguments × List Text) :=
  match t with
  | '-' :: '-' :: name => long a name rest
  | '-' :: c :: cs => letters a (c :: cs) rest
  | t => (a.setInput t).map (·, rest)

/-- The arguments behind the action. -/
def arguments (a : Arguments) (args : List Text) : Except Usage Arguments :=
  match args with
  | [] => .ok a
  | t :: rest =>
    if t = ['-', '-'] then files a rest
    else
      match argument a t rest with
      | .error u => .error u
      | .ok (a', rest') =>
        if _h : rest'.length < (t :: rest).length then arguments a' rest' else .error .invalid
termination_by args.length
decreasing_by assumption

/-- What follows a request for help is at most the name of one action, or of the request. -/
def help : List Text → Usage
  | [] => .help
  | [t] => if (Action.ofName? t).isSome || t = "help".toList then .help else .invalid
  | _ => .invalid

/-- The arguments before the action, and the action. -/
def leading (verbose : Bool) : List Text → Except Usage Arguments
  | [] => .error .invalid
  | t :: rest =>
    match t with
    | '-' :: '-' :: name =>
      if name = "verbose".toList ∧ !verbose then leading true rest
      else if name = "help".toList then .error .help
      else .error .invalid
    | '-' :: c :: cs =>
      if c = 'h' ∨ (c = 'v' ∧ !verbose ∧ cs.head? = some 'h') then .error .help
      else if c = 'v' ∧ !verbose ∧ cs.isEmpty then leading true rest
      else .error .invalid
    | t =>
      match Action.ofName? t with
      | some action =>
        (arguments (.start action) rest).map fun a => { a with verbose := verbose || a.verbose }
      | none => if t = "help".toList then .error (help rest) else .error .invalid

/-- The action that the arguments ask for. -/
def parseArguments (args : List Text) : Except Usage Arguments :=
  match leading false args with
  | .ok a => if a.existing.isSome ∧ a.model.isNone then .error .invalid else .ok a
  | .error u => .error u

end PromptTemplate.Command
