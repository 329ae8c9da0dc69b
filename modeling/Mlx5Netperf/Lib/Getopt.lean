import Mathlib.Data.List.Basic

/-!
# Command-Line Options

`getopt_long` of the C library, as the list of the values it returns one after
the other with the `optarg` of each. Operands are skipped over, or end the
options when `POSIXLY_CORRECT` is set; a long name may be abbreviated as long as it
stays unambiguous. The option string starts with none of the flags `+`, `-`, `:` and
has no `W;`.
-/

namespace Getopt

/-- `has_arg` of an option. -/
inductive HasArg where
  | no
  | required
  | optional
  deriving DecidableEq, Repr

/-- `struct option` whose `flag` is null. -/
structure LongOption where
  name : List Char
  hasArg : HasArg
  val : Char
  deriving DecidableEq, Repr

/-- The two tables that `getopt_long` is called with. -/
structure Options where
  short : List Char
  long : List LongOption

/-- A value that was returned, and `optarg`; `none` is a null pointer. -/
structure Parsed where
  opt : Char
  optarg : Option (List Char)
  deriving DecidableEq, Repr

/-- What is returned for an element that is not understood. -/
def Parsed.error : Parsed := ⟨'?', none⟩

/-! ## One element -/

/-- What one element of the argument vector is. -/
inductive Element where
  /-- the end of the options -/
  | stop
  | operand
  /-- options that are complete -/
  | done (found : List Parsed)
  /-- options the last of which takes the next element as its argument -/
  | wants (found : List Parsed) (opt : Char)
  deriving DecidableEq, Repr

/-- One option in front of the others of its element. -/
def Element.cons (p : Parsed) : Element → Element
  | .done found => .done (p :: found)
  | .wants found opt => .wants (p :: found) opt
  | e => e

/-- What the option string says of a character. -/
def shortHasArg (short : List Char) (c : Char) : Option HasArg :=
  if c = ':' ∨ c = ';' then none
  else
    match short.dropWhile fun a => decide (a ≠ c) with
    | [] => none
    | _ :: ':' :: ':' :: _ => some .optional
    | _ :: ':' :: _ => some .required
    | _ => some .no

/-- The options behind a single dash. -/
def shortOptions (short : List Char) : List Char → Element
  | [] => .done []
  | c :: s =>
    match shortHasArg short c with
    | none => (shortOptions short s).cons .error
    | some .no => (shortOptions short s).cons ⟨c, none⟩
    -- the rest of the element is the argument
    | some .required => if s = [] then .wants [] c else .done [⟨c, some s⟩]
    | some .optional => .done [⟨c, if s = [] then none else some s⟩]

/-- The long option that a name stands for: its own, or the one it abbreviates. -/
def findLong (long : List LongOption) (name : List Char) : Option LongOption :=
  match long.find? fun p => decide (p.name = name) with
  | some p => some p
  | none =>
    match long.filter fun p => name.isPrefixOf p.name with
    | [] => none
    | p :: ps => if ps.all fun q => q.hasArg = p.hasArg ∧ q.val = p.val then some p else none

/-- The option behind two dashes. -/
def longOption (long : List LongOption) (body : List Char) : Element :=
  match findLong long (body.takeWhile fun c => decide (c ≠ '=')) with
  | none => .done [.error]
  | some p =>
    match body.dropWhile fun c => decide (c ≠ '=') with
    | _ :: arg => if p.hasArg = .no then .done [.error] else .done [⟨p.val, some arg⟩]
    | [] => if p.hasArg = .required then .wants [] p.val else .done [⟨p.val, none⟩]

/-- What an element is. -/
def element (o : Options) : List Char → Element
  | ['-', '-'] => .stop
  | '-' :: '-' :: body => longOption o.long body
  | '-' :: c :: s => shortOptions o.short (c :: s)
  | _ => .operand

/-! ## The argument vector -/

/-- The values that `getopt_long` returns on the elements behind the program's name. -/
def getoptLong (o : Options) (posixlyCorrect : Bool) : List (List Char) → List Parsed
  | [] => []
  | arg :: args =>
    match element o arg with
    | .stop => []
    | .operand => if posixlyCorrect then [] else getoptLong o posixlyCorrect args
    | .done found => found ++ getoptLong o posixlyCorrect args
    | .wants found opt =>
      match args with
      | [] => found ++ [.error]
      | arg :: args => found ++ ⟨opt, some arg⟩ :: getoptLong o posixlyCorrect args

end Getopt
