import Downline.Text.Pieces

/-!
# Grammars of command lines

A grammar says which options, operands and subcommands a command takes; a command line is read
against it word by word. An option is a word that begins with a dash, or several short options in
one word; its value stands in the same word or in the next one. Behind `--` every word is an
operand. The name of a subcommand hands the rest of the line to the subcommand's grammar, and `help`
asks for information on the subcommand that it names.

Only one thing outlives a word: an option whose value is still awaited, or has been read but not yet
been looked at. It is settled when the next option or operand comes, or at the end of the line. The
name of a subcommand does not settle it, so what is wrong with it may go unseen if the rest of the
line asks for information.
-/

namespace Downline.Command

/-- What an option or an operand takes. -/
inductive Kind where
  /-- Any text. -/
  | text
  /-- A path, which is not empty. -/
  | path
  /-- One of several words. -/
  | oneOf (words : List String)
  /-- Nothing; given at most once. -/
  | flag
  /-- Nothing; given any number of times. -/
  | tally
  /-- Nothing; asks for information. -/
  | information
  deriving DecidableEq, Repr

namespace Kind

/-- True of an option that has a value. -/
def takesValue : Kind → Bool
  | text => true
  | path => true
  | oneOf _ => true
  | _ => false

def accepts : Kind → String → Bool
  | path, value => value != ""
  | oneOf words, value => words.contains value
  | _, _ => true

end Kind

/-- An option by its name. -/
structure OptionForm where
  name : String
  letter : Option Char
  kind : Kind
  required : Bool
  deriving DecidableEq, Repr

/-- An operand. All operands are required. -/
structure Operand where
  name : String
  kind : Kind
  deriving DecidableEq, Repr

/-- What a command takes. Without a subcommand it is complete only if it has none or may do without.
-/
inductive Grammar where
  | node (options : List OptionForm) (operands : List Operand)
      (subcommands : List (String × Grammar)) (complete : Bool)

namespace Grammar

def options : Grammar → List OptionForm
  | node options _ _ _ => options

def operands : Grammar → List Operand
  | node _ operands _ _ => operands

def subcommands : Grammar → List (String × Grammar)
  | node _ _ subcommands _ => subcommands

def complete : Grammar → Bool
  | node _ _ _ complete => complete

/-- A command that takes options and operands only. -/
def leaf (options : List OptionForm) (operands : List Operand) : Grammar :=
  node options operands [] true

/-- The word that asks for information on a subcommand. -/
def helpWord : String := "help"

/-- True if a word asks for information on a subcommand. -/
def isHelp (g : Grammar) (word : String) : Bool := word == helpWord && !g.subcommands.isEmpty

/-- The grammar of a subcommand. -/
def subcommand? (g : Grammar) (word : String) : Option Grammar := g.subcommands.lookup word

/-- The option with a name. -/
def named? (g : Grammar) (name : String) : Option OptionForm := g.options.find? (·.name == name)

/-- The option with a letter. -/
def lettered? (g : Grammar) (letter : Char) : Option OptionForm :=
  g.options.find? (·.letter == some letter)

end Grammar

/-- Why a command line is not carried out. -/
inductive Refusal where
  /-- It asks for information instead. -/
  | information
  /-- It does not follow the grammar. -/
  | misuse
  deriving DecidableEq, Repr

/-- What has been read of the words for one command. -/
structure Reading where
  /-- Values by the names of options and operands; a flag has the empty text. -/
  bound : List (String × String)
  /-- The option to be settled next, with its value unless that is awaited. -/
  pending : Option (OptionForm × Option String)
  /-- The operands still to come. -/
  missing : List Operand
  /-- All words that follow are operands. -/
  operandsOnly : Bool
  deriving DecidableEq, Repr

namespace Reading

/-- Nothing has been read. -/
def start (g : Grammar) : Reading := ⟨[], none, g.operands, false⟩

/-- Gives an option its value. Only a tally may be given again. -/
def bind (r : Reading) (f : OptionForm) (value : String) : Except Refusal Reading :=
  if (f.kind != .tally && (r.bound.lookup f.name).isSome) || !f.kind.accepts value then
    .error .misuse
  else .ok { r with bound := (f.name, value) :: r.bound }

/-- Settles the pending option. -/
def settle (r : Reading) : Except Refusal Reading :=
  match r.pending with
  | none => .ok r
  | some (_, none) => .error .misuse
  | some (f, some value) => { r with pending := none }.bind f value

/-- The option whose value is awaited. -/
def awaits? (r : Reading) : Option OptionForm :=
  match r.pending with
  | some (f, none) => some f
  | _ => none

/-- Takes an option without a value. -/
def takeFlag (r : Reading) (f : OptionForm) : Except Refusal Reading :=
  match r.settle with
  | .error e => .error e
  | .ok r => if f.kind = .information then .error .information else r.bind f ""

/-- Takes an option together with its value. -/
def takeValue (r : Reading) (f : OptionForm) (value : String) : Except Refusal Reading :=
  match r.settle with
  | .error e => .error e
  | .ok r => r.bind f value

/-- Takes an option whose value is the next word. -/
def takeAwaiting (r : Reading) (f : OptionForm) : Except Refusal Reading :=
  match r.settle with
  | .error e => .error e
  | .ok r => .ok { r with pending := some (f, none) }

/-- Takes an option that is written out, from its name on. An equals sign ends the name and begins
the value. -/
def takeNamed (g : Grammar) (r : Reading) (cs : List Char) : Except Refusal Reading :=
  match g.named? (String.ofList (cs.takeWhile (· != '='))), cs.dropWhile (· != '=') with
  | none, _ => .error .misuse
  | some f, [] => if f.kind.takesValue then r.takeAwaiting f else r.takeFlag f
  | some f, _ :: value =>
    if f.kind.takesValue then r.takeValue f (String.ofList value) else .error .misuse

/-- Takes short options, from the first letter on. Behind the letter of an option with a value, the
rest is the value, with or without an equals sign. -/
def takeLetters (g : Grammar) (r : Reading) : List Char → Except Refusal Reading
  | [] => .ok r
  | c :: cs =>
    match g.lettered? c with
    | none => .error .misuse
    | some f =>
      if f.kind.takesValue then
        match cs with
        | [] => r.takeAwaiting f
        | '=' :: value => r.takeValue f (String.ofList value)
        | value => r.takeValue f (String.ofList value)
      else
        match r.takeFlag f with
        | .error e => .error e
        | .ok r => takeLetters g r cs

/-- Takes an operand. -/
def takeOperand (r : Reading) (word : String) : Except Refusal Reading :=
  match r.settle with
  | .error e => .error e
  | .ok r =>
    match r.missing with
    | [] => .error .misuse
    | o :: missing =>
      if o.kind.accepts word then .ok { r with bound := (o.name, word) :: r.bound, missing }
      else .error .misuse

/-- Takes a word that names no subcommand. -/
def takeWord (g : Grammar) (r : Reading) (word : String) : Except Refusal Reading :=
  if r.operandsOnly then r.takeOperand word
  else
    match word.toList, r.awaits? with
    | ['-', '-'], _ => .ok { r with operandsOnly := true }
    | '-' :: '-' :: name, _ => r.takeNamed g name
    | '-' :: c :: cs, _ => r.takeLetters g (c :: cs)
    | _, some f => .ok { r with pending := some (f, some word) }
    | _, none => r.takeOperand word

/-- Ends the reading of a command, with or without a subcommand. All that is required must be there.
-/
def finish (g : Grammar) (r : Reading) (hasSubcommand : Bool) :
    Except Refusal (List (String × String)) :=
  match r.settle with
  | .error e => .error e
  | .ok r =>
    let given := g.options.all fun f => !f.required || (r.bound.lookup f.name).isSome
    if given && r.missing.isEmpty && (hasSubcommand || g.complete) then .ok r.bound
    else .error .misuse

end Reading

/-- A command line that follows its grammar: the names of the subcommands on the way, and the values
by name. Of several values for a name, that of the innermost subcommand comes first. -/
structure Parsed where
  subcommands : List String
  values : List (String × String)
  deriving DecidableEq, Repr

namespace Parsed

/-- The value of an option or an operand. -/
def value? (p : Parsed) (name : String) : Option String := p.values.lookup name

/-- True if a flag is given. -/
def has (p : Parsed) (name : String) : Bool := (p.value? name).isSome

end Parsed

namespace Grammar

/-- What asking for help comes to: the words must name a subcommand of a subcommand and so on. The
help word may stand at the end. -/
def helpOn (g : Grammar) : List String → Refusal
  | [] => .information
  | word :: words =>
    if g.isHelp word then if words.isEmpty then .information else .misuse
    else
      match g.subcommand? word with
      | none => .misuse
      | some sub => sub.helpOn words

/-- Reads the words for a command of which some have been read. -/
def readFrom (g : Grammar) (r : Reading) : List String → Except Refusal Parsed
  | [] => (r.finish g false).map (⟨[], ·⟩)
  | word :: words =>
    let atName := !r.operandsOnly && r.awaits?.isNone
    match if atName then g.subcommand? word else none with
    | some sub =>
      match readFrom sub (.start sub) words with
      | .error e => .error e
      | .ok p =>
        (r.finish g true).map fun own => ⟨word :: p.subcommands, p.values ++ own⟩
    | none =>
      if atName && g.isHelp word then .error (g.helpOn words)
      else
        match r.takeWord g word with
        | .error e => .error e
        | .ok r => readFrom g r words

/-- Reads a command line. -/
def read (g : Grammar) (words : List String) : Except Refusal Parsed := g.readFrom (.start g) words

end Grammar

end Downline.Command
