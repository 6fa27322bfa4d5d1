import KeyScore.Number.Decimal

/-!
# Command line arguments

Options are written `--name value`, `--name=value`, `-n value`, `-nvalue` or `-n=value`;
those that take no value may be run together behind one dash. Options and operands mix in
any order until `--`, behind which everything is an operand. No option may be given
twice, and a value that is an argument of its own may not look like an option.

Arguments are taken from left to right, and the first one that ends the reading decides:
so a fault in front of `--version` wins over it.
-/

namespace KeyScore.Command

/-- What an option takes. -/
inductive Kind where
  | flag
  | path
  | real
  /-- A whole number from 0 to the largest 32-bit word. -/
  | word
  | version
  | help
deriving DecidableEq, Repr

structure Opt where
  name : String
  letter? : Option Char
  kind : Kind

/-- What a command accepts. -/
structure Grammar where
  options : List Opt
  /-- The most operands there may be. -/
  operands : Nat

/-- Why reading ends before all arguments are taken. -/
inductive Stop where
  | misuse
  | version
  | help
deriving DecidableEq, Repr

/-- The arguments taken so far. -/
structure Given where
  options : List (String × String) := []
  operands : List String := []

namespace Given

def has (given : Given) (name : String) : Bool := given.options.any fun o => o.1 == name

def value? (given : Given) (name : String) : Option String :=
  (given.options.find? fun o => o.1 == name).map Prod.snd

end Given

/-- A whole number that fits a 32-bit word; a sign is allowed. -/
def readCount? (cs : List Char) : Option UInt32 :=
  (Number.readInt? cs).bind fun n =>
    if 0 ≤ n ∧ n < UInt32.size then some (UInt32.ofNat n.toNat) else none

namespace Kind

def takesValue : Kind → Bool
  | path | real | word => true
  | flag | version | help => false

/-- Whether a text is a value of the kind. -/
def accepts (kind : Kind) (text : String) : Bool :=
  match kind with
  | path => text ≠ ""
  | real => (Number.readFloat? text.toList).isSome
  | word => (readCount? text.toList).isSome
  | flag | version | help => true

end Kind

/-- Dashes in front make an option; a dash alone is an operand. -/
def looksLikeOption (arg : String) : Bool :=
  match arg.toList with
  | '-' :: _ :: _ => true
  | _ => false

namespace Grammar

def named? (g : Grammar) (name : String) : Option Opt := g.options.find? fun o => o.name == name

def lettered? (g : Grammar) (letter : Char) : Option Opt :=
  g.options.find? fun o => o.letter? == some letter

/-- Takes an option with its value. -/
def takeOption (given : Given) (opt : Opt) (value : String) : Except Stop Given :=
  match opt.kind with
  | .version => .error .version
  | .help => .error .help
  | kind =>
    if given.has opt.name || !kind.accepts value then .error .misuse
    else .ok { given with options := given.options ++ [(opt.name, value)] }

/-- Takes an operand, which is a path. -/
def takeOperand (g : Grammar) (given : Given) (value : String) : Except Stop Given :=
  if given.operands.length < g.operands && Kind.path.accepts value then
    .ok { given with operands := given.operands ++ [value] }
  else .error .misuse

/-- Takes the options behind a single dash. One of them may be left without its value. -/
def takeLetters (g : Grammar) (given : Given) : List Char → Except Stop (Given × Option Opt)
  | [] => .ok (given, none)
  | letter :: rest =>
    match g.lettered? letter with
    | none => .error .misuse
    | some opt =>
      if opt.kind.takesValue then
        match rest with
        | [] => .ok (given, some opt)
        | '=' :: value => (takeOption given opt (String.ofList value)).map (·, none)
        | value => (takeOption given opt (String.ofList value)).map (·, none)
      else do g.takeLetters (← takeOption given opt "") rest

/-- Takes an option written with its name, and the value behind an equals sign if there is
one. It may be left without its value. -/
def takeNamed (g : Grammar) (given : Given) (text : List Char) :
    Except Stop (Given × Option Opt) :=
  let value? := match text.dropWhile (· ≠ '=') with
    | _ :: value => some (String.ofList value)
    | [] => none
  match g.named? (String.ofList (text.takeWhile (· ≠ '='))) with
  | none => .error .misuse
  | some opt =>
    match opt.kind.takesValue, value? with
    | true, none => .ok (given, some opt)
    | true, some value => (takeOption given opt value).map (·, none)
    | false, none => (takeOption given opt "").map (·, none)
    | false, some _ => .error .misuse

/-- Takes the arguments in turn. An option that waits for its value gets the next one. -/
def take (g : Grammar) (given : Given) (waiting : Option Opt) : List String → Except Stop Given
  | [] => if waiting.isSome then .error .misuse else .ok given
  | arg :: args =>
    match waiting with
    | some opt =>
      if looksLikeOption arg then .error .misuse
      else do g.take (← takeOption given opt arg) none args
    | none =>
      match arg.toList with
      | ['-', '-'] => args.foldlM g.takeOperand given
      | '-' :: '-' :: text => do
        let (given, waiting) ← g.takeNamed given text
        g.take given waiting args
      | '-' :: c :: letters => do
        let (given, waiting) ← g.takeLetters given (c :: letters)
        g.take given waiting args
      | _ => do g.take (← g.takeOperand given arg) none args

/-- Reads all arguments of a command. -/
def read (g : Grammar) (args : List String) : Except Stop Given := g.take {} none args

end Grammar

end KeyScore.Command
