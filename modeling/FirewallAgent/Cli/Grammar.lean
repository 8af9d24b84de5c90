import FirewallAgent.Text.Numeral

/-!
The grammar of command lines. A command line is a path of command names, with named arguments
anywhere and operands at the last command. A reader goes from left to right and stops at the first
fault, or at the first request for help or for the version.
-/
namespace FirewallAgent.Cli

structure Flag where
  name : String
  letter : Option Char := none
  accepts : Option (String → Bool) := none
  many : Bool := false

structure Level where
  path : List String
  flags : List Flag
  commands : List String := []
  operands : Nat := 0

inductive Refusal where
  | usage
  | help (path : List String)
  | version (path : List String)
  deriving DecidableEq, Repr

structure Given where
  values : List (String × String) := []
  operands : List String := []
  command : Option (String × List String) := none
  deriving DecidableEq, Repr

inductive Reading where
  | value (f : Flag) (v : String)
  | switch (f : Flag)
  | wanting (f : Flag)
  | operand

namespace Level

def isOption (a : String) : Bool :=
  match a.toList with
  | '-' :: _ :: _ => true
  | _ => false

def afterEquals (cs : List Char) : Option String :=
  match cs.dropWhile (· ≠ '=') with
  | [] => none
  | _ :: v => some (String.ofList v)

def readLong (l : Level) (cs : List Char) : Except Refusal Reading :=
  let name := String.ofList (cs.takeWhile (· ≠ '='))
  match l.flags.find? (·.name = name), afterEquals cs with
  | some f, v => match f.accepts, v with
    | none, none => .ok (.switch f)
    | none, some _ => .error .usage
    | some _, none => .ok (.wanting f)
    | some _, some v => .ok (.value f v)
  | none, none =>
    if name = "help" then .error (.help l.path)
    else if name = "version" then .error (.version l.path)
    else .error .usage
  | none, some _ => .error .usage

def readShort (l : Level) : List Char → Except Refusal Reading
  | 'h' :: _ => .error (.help l.path)
  | 'V' :: _ => .error (.version l.path)
  | c :: rest => match l.flags.find? (·.letter = some c), rest with
    | none, _ => .error .usage
    | some f, [] => .ok (.wanting f)
    | some f, '=' :: v => .ok (.value f (String.ofList v))
    | some f, v => .ok (.value f (String.ofList v))
  | [] => .error .usage

def read (l : Level) (a : String) : Except Refusal Reading :=
  match a.toList with
  | '-' :: '-' :: cs => l.readLong cs
  | '-' :: c :: cs => l.readShort (c :: cs)
  | _ => .ok .operand

def add (g : Given) (f : Flag) (v : String) : Except Refusal Given :=
  if (g.values.lookup f.name).isSome && !f.many then .error .usage
  else if f.accepts.all (· v) then .ok { g with values := g.values ++ [(f.name, v)] }
  else .error .usage

def addOperand (l : Level) (g : Given) (a : String) : Except Refusal Given :=
  if g.operands.length < l.operands && a ≠ "" then .ok { g with operands := g.operands ++ [a] }
  else .error .usage

def addOperands (l : Level) (g : Given) : List String → Except Refusal Given
  | [] => .ok g
  | a :: rest => do addOperands l (← l.addOperand g a) rest

def parse (l : Level) (g : Given) : List String → Except Refusal Given
  | [] => .ok g
  | "--" :: rest => l.addOperands g rest
  | a :: rest => do
    match ← l.read a with
    | .value f v => parse l (← add g f v) rest
    | .switch f => parse l (← add g f "") rest
    | .wanting f => match rest with
      | v :: rest => if isOption v then .error .usage else parse l (← add g f v) rest
      | [] => .error .usage
    | .operand =>
      if l.commands.contains a then .ok { g with command := some (a, rest) }
      else parse l (← l.addOperand g a) rest

end Level

def natBelow? (limit : Nat) (s : String) : Option Nat :=
  let digits := match s.toList with
    | '+' :: cs => cs
    | cs => cs
  match Text.Numeral.all? 10 digits with
  | some n => if n < limit then some n else none
  | none => none

end FirewallAgent.Cli
