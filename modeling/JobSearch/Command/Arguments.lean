import JobSearch.Command.Flag

/-!
# Reading arguments

Arguments are read from left to right. An option that needs a value takes it from the same argument,
behind an equals sign or behind its letter, or else from the next argument. Whatever starts with a
hyphen and is no option is refused, unless a query is still missing. After two hyphens alone there
are no more options. The first fault ends the reading, and so does a call for help.
-/

namespace JobSearch.Command

/-- Why there is nothing to carry out. -/
inductive Stop where
  /-- Help is asked for. -/
  | help
  /-- The version is asked for. -/
  | version
  /-- The arguments are wrong. -/
  | misuse
  deriving DecidableEq, Repr

/-- The arguments that have been read. -/
structure Arguments where
  /-- The options with their values, in the order given. -/
  options : List (Flag × Option Text)
  /-- The last option, which still lacks its value. -/
  waiting : Option Flag
  /-- The query. -/
  query : Option Text
  deriving DecidableEq, Repr

namespace Arguments

/-- No argument at all. -/
def empty : Arguments := ⟨[], none, none⟩

/-- The option has been given. -/
def has (a : Arguments) (f : Flag) : Bool := a.options.any fun o => o.1 == f

/-- The values given to an option. -/
def values (a : Arguments) (f : Flag) : List (Option Text) :=
  (a.options.filter fun o => o.1 == f).map (·.2)

/-- The texts given to an option. -/
def texts (a : Arguments) (f : Flag) : List Text := (a.values f).filterMap fun v => v

/-- The text given to an option. -/
def text? (a : Arguments) (f : Flag) : Option Text := (a.texts f).head?

/-- Adds an option that has all it needs. -/
def record (a : Arguments) (f : Flag) (value : Option Text) : Except Stop Arguments :=
  match f with
  | .help => .error .help
  | .version => .error .version
  | f =>
    if a.has f && !f.isRepeatable || !(value.elim true f.accepts) then .error .misuse
    else .ok { a with options := a.options ++ [(f, value)] }

/-- Gives up waiting for a value, which not every option can do without. -/
def settle (a : Arguments) : Except Stop Arguments :=
  match a.waiting with
  | none => .ok a
  | some f =>
    if f.need = .maybe then { a with waiting := none }.record f none else .error .misuse

/-- Adds an option with its value. -/
def give (a : Arguments) (f : Flag) (value : Option Text) : Except Stop Arguments :=
  match a.settle with
  | .error e => .error e
  | .ok a => a.record f value

/-- Adds an option whose value is in the next argument. -/
def await (a : Arguments) (f : Flag) : Except Stop Arguments :=
  a.settle.map fun a => { a with waiting := some f }

/-- A query may still be given. -/
def lacksQuery (g : Grammar) (a : Arguments) : Bool := g.takesQuery && a.query.isNone

/-- Adds an argument that is no option as the query. -/
def operand (g : Grammar) (a : Arguments) (t : Text) : Except Stop Arguments :=
  match a.settle with
  | .error e => .error e
  | .ok a => if lacksQuery g a then .ok { a with query := some t } else .error .misuse

/-- Adds an argument that is no option: the value of the option that waits for one, or the query. -/
def plain (g : Grammar) (a : Arguments) (t : Text) : Except Stop Arguments :=
  match a.waiting with
  | some f => { a with waiting := none }.record f (some t)
  | none => a.operand g t

/-- Adds an option that is given by its name. -/
def long (g : Grammar) (a : Arguments) (t : Text) : Except Stop Arguments :=
  let name := t.takeWhile (· != '=')
  let value := (t.dropWhile (· != '=')).tail?
  match g.named? name with
  | none => if lacksQuery g a then a.plain g ('-' :: '-' :: t) else .error .misuse
  | some f =>
    if f.need = .never then if value.isSome then .error .misuse else a.give f none
    else if value.isSome then a.give f value
    else a.await f

/-- Adds options that are given by their letters. The rest behind the letter of an option that takes
a value is its value. -/
def letters (g : Grammar) (a : Arguments) : Text → Except Stop Arguments
  | [] => .ok a
  | c :: rest =>
    match g.lettered? c with
    | none => .error .misuse
    | some f =>
      if f.need = .never then
        match a.give f none with
        | .error e => .error e
        | .ok a => letters g a rest
      else
        match rest with
        | [] => a.await f
        | '=' :: value => a.give f (some value)
        | value => a.give f (some value)

/-- Adds an argument. -/
def add (g : Grammar) (a : Arguments) (t : Text) : Except Stop Arguments :=
  match t with
  | '-' :: '-' :: r => a.long g r
  | '-' :: c :: r =>
    if lacksQuery g a && (c :: r).any (fun d => (g.lettered? d).isNone) then a.plain g t
    else a.letters g (c :: r)
  | t => a.plain g t

/-- Adds arguments that are no options. -/
def addOperands (g : Grammar) (a : Arguments) : List Text → Except Stop Arguments
  | [] => a.settle
  | t :: ts =>
    match a.operand g t with
    | .error e => .error e
    | .ok a => addOperands g a ts

/-- Adds all arguments. -/
def addAll (g : Grammar) (a : Arguments) : List Text → Except Stop Arguments
  | [] => a.settle
  | t :: ts =>
    if t = ['-', '-'] then a.addOperands g ts
    else
      match a.add g t with
      | .error e => .error e
      | .ok a => addAll g a ts

end Arguments

end JobSearch.Command
