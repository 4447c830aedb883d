/-! Reading the arguments of a program: options, subcommands and operands. An option with a value
takes it from behind an equals sign or from the next argument; short options may be run together.
Options that hold everywhere may be given at any level, and the one that is given deepest counts. -/

namespace Harvest.CommandLine

inductive Kind
  /-- At most once, without a value. -/
  | flag
  /-- As often as one likes, without a value. -/
  | count
  /-- At most once at each level, with a value for which `valid` holds. -/
  | value (valid : String → Bool)

structure Choice where
  long : String
  short : Option Char := none
  kind : Kind

/-- What may be given at a level: options, operands (all of which are needed) and subcommands (one
of which is needed). -/
inductive Grammar
  | leaf (choices : List Choice) (operands : Nat)
  | branch (choices : List Choice) (subcommands : List (String × Grammar))

namespace Grammar

def choices : Grammar → List Choice
  | leaf choices _ | branch choices _ => choices

def operands : Grammar → Nat
  | leaf _ n => n
  | branch .. => 0

def subcommands : Grammar → List (String × Grammar)
  | leaf .. => []
  | branch _ subs => subs

def everywhere (shared : List Choice) : Grammar → Grammar
  | leaf choices n => leaf (choices ++ shared) n
  | branch choices subs => branch (choices ++ shared) (inAll shared subs)
where
  inAll (shared : List Choice) : List (String × Grammar) → List (String × Grammar)
    | [] => []
    | (name, g) :: rest => (name, everywhere shared g) :: inAll shared rest

end Grammar

inductive Usage
  | wrong
  | help
  | version
deriving DecidableEq, Repr

structure Given where
  path : List String := []
  /-- The options that were given at the present level. -/
  here : List String := []
  /-- The values of options, the latest first. A flag has the empty one. -/
  values : List (String × String) := []
  operands : List String := []
deriving DecidableEq, Repr

namespace Given

def value? (g : Given) (long : String) : Option String := g.values.lookup long

def has (g : Given) (long : String) : Bool := (g.value? long).isSome

def take (g : Given) (c : Choice) (value : String) : Except Usage Given :=
  let taken :=
    { g with here := c.long :: g.here, values := (c.long, value) :: g.values }
  match c.kind with
  | .count => .ok taken
  | .flag => if g.here.contains c.long then .error .wrong else .ok taken
  | .value valid =>
    if g.here.contains c.long || !valid value then .error .wrong else .ok taken

end Given

/-- Reads short options that are run together. One that needs a value has it behind it, or is handed
out to get it from the next argument. -/
def readShort (g : Grammar) (top : Bool) :
    List Char → Given → Except Usage (Given × Option Choice)
  | [], given => .ok (given, none)
  | c :: rest, given =>
    match g.choices.find? (·.short == some c) with
    | none =>
      if c = 'h' then .error .help
      else if c = 'V' ∧ top then .error .version
      else .error .wrong
    | some choice =>
      match choice.kind with
      | .value _ =>
        match rest with
        | [] => .ok (given, some choice)
        | '=' :: value => (given.take choice (String.ofList value)).map (·, none)
        | value => (given.take choice (String.ofList value)).map (·, none)
      | _ =>
        match given.take choice "" with
        | .error usage => .error usage
        | .ok given => readShort g top rest given

def readLong (g : Grammar) (top : Bool) (cs : List Char) (given : Given) :
    Except Usage (Given × Option Choice) :=
  let name := String.ofList (cs.takeWhile (· ≠ '='))
  let attached :=
    match cs.dropWhile (· ≠ '=') with
    | _ :: value => some (String.ofList value)
    | [] => none
  match g.choices.find? (·.long == name) with
  | none =>
    if name = "help" ∧ attached.isNone then .error .help
    else if name = "version" ∧ attached.isNone ∧ top then .error .version
    else .error .wrong
  | some choice =>
    match choice.kind, attached with
    | .value _, none => .ok (given, some choice)
    | .value _, some value => (given.take choice value).map (·, none)
    | _, none => (given.take choice "").map (·, none)
    | _, some _ => .error .wrong

/-- An argument that cannot be a value because it begins like an option. -/
def isDashed (arg : String) : Bool :=
  match arg.toList with
  | '-' :: _ :: _ => true
  | _ => false

/-- Reads arguments. After two dashes all that follow are operands. -/
def read (g : Grammar) (given : Given) (plain : Bool) : List String → Except Usage Given
  | [] =>
    if given.operands.length = g.operands ∧ g.subcommands.isEmpty then .ok given else .error .wrong
  | arg :: rest =>
    let operand : Except Usage Given :=
      if given.operands.length < g.operands then
        .ok { given with operands := given.operands ++ [arg] }
      else .error .wrong
    let option? : Option (Except Usage (Given × Option Choice)) :=
      match arg.toList with
      | '-' :: '-' :: cs => some (readLong g given.path.isEmpty cs given)
      | '-' :: c :: cs => some (readShort g given.path.isEmpty (c :: cs) given)
      | _ => none
    if plain then
      match operand with
      | .error usage => .error usage
      | .ok given => read g given true rest
    else if arg = "--" then read g given true rest
    else
      match g.subcommands.find? (·.1 == arg), option? with
      | some (name, sub), _ =>
        read sub { given with path := given.path ++ [name], here := [] } false rest
      | none, none =>
        if arg = "help" ∧ !g.subcommands.isEmpty then .error .help
        else
          match operand with
          | .error usage => .error usage
          | .ok given => read g given false rest
      | none, some (.error usage) => .error usage
      | none, some (.ok (given, none)) => read g given false rest
      | none, some (.ok (given, some choice)) =>
        match rest with
        | [] => .error .wrong
        | value :: rest =>
          if isDashed value then .error .wrong
          else
            match given.take choice value with
            | .error usage => .error usage
            | .ok given => read g given false rest

end Harvest.CommandLine
