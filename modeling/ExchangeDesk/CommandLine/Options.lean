import ExchangeDesk.Calendar.Reader
import ExchangeDesk.Decimal.Reader
import ExchangeDesk.Desk.Session
import ExchangeDesk.Rate.Type

/-!
# Options of the command line

A command is followed by options. Most of them take the next argument as their
value, whatever it looks like; an option that is given again replaces its
earlier value. Values are checked from left to right, before anything is known
to be missing.
-/

namespace ExchangeDesk.CommandLine

inductive UsageError where
  | unknownCommand (name : String)
  | unknownOption (name : String)
  | missingValue (flag what : String)
  | invalidAmount (raw : String) (cause : Decimal.ReadError)
  | invalidDate (raw : String) (cause : Date.ReadError)
  | invalidId (flag : String)
  | unknownRateType (raw : String)
  | required (option : String)
  deriving DecidableEq, Repr

def UsageError.message : UsageError → String
  | .unknownCommand name => s!"Unknown command: {name}"
  | .unknownOption name => s!"Unknown option: {name}"
  | .missingValue flag what => s!"{flag} requires {what}"
  | .invalidAmount raw cause => s!"Invalid amount '{raw}': {cause.message}"
  | .invalidDate raw cause => s!"Invalid date '{raw}': {cause.message}"
  | .invalidId flag => s!"{flag} requires a numeric id"
  | .unknownRateType raw => s!"Unknown rate type '{raw}'"
  | .required option => s!"Error: {option} is required"

/-- An option that takes a value: its name, what it asks for, and how a value is
checked and kept. -/
structure ValueFlag (options : Type) where
  name : String
  what : String
  keep : options → String → Except UsageError options

def readOptions {options : Type} (flags : List (ValueFlag options))
    (switches : List (String × (options → options))) :
    options → List String → Except UsageError options
  | o, [] => .ok o
  | o, name :: rest =>
    match flags.find? (·.name = name) with
    | some flag =>
      match rest with
      | [] => .error (.missingValue name flag.what)
      | value :: rest => do readOptions flags switches (← flag.keep o value) rest
    | none =>
      match switches.lookup name with
      | some set => readOptions flags switches (set o) rest
      | none => .error (.unknownOption name)

-- ---------------------------------------------------------------------------
-- Values
-- ---------------------------------------------------------------------------

def amountValue (raw : String) : Except UsageError Decimal :=
  (Decimal.read raw).mapError (.invalidAmount raw)

def dateValue (raw : String) : Except UsageError Date :=
  (Date.read .strict raw).mapError (.invalidDate raw)

def idValue (flag raw : String) : Except UsageError Nat :=
  match Text.unsigned? raw.toList with
  | some n => if n < UInt64.size then .ok n else .error (.invalidId flag)
  | none => .error (.invalidId flag)

def rateTypeValue (raw : String) : Except UsageError RateType :=
  let found := match Text.signed? raw.toList with
    | some n => RateType.ofNumber? n
    | none => RateType.all.find? fun t => t.name.toList == raw.toList.map Char.toUpper
  match found with
  | some type => .ok type
  | none => .error (.unknownRateType raw)

-- ---------------------------------------------------------------------------
-- The two commands with options
-- ---------------------------------------------------------------------------

structure ExchangeOptions where
  book : Option String := none
  source : Option String := none
  target : Option String := none
  amount : Option Decimal := none
  date : Option Date := none
  user : Option Nat := none
  staff : Option Nat := none
  clientId : Option String := none
  clientName : Option String := none
  atomicity : Atomicity := .allLegs
  format : String := "text"
  deriving DecidableEq, Repr

def exchangeFlags : List (ValueFlag ExchangeOptions) := [
  ⟨"--book", "a file path", fun o v => .ok { o with book := some v }⟩,
  ⟨"--from", "a currency code", fun o v => .ok { o with source := some v }⟩,
  ⟨"--to", "a currency code", fun o v => .ok { o with target := some v }⟩,
  ⟨"--amount", "an amount", fun o v => do return { o with amount := some (← amountValue v) }⟩,
  ⟨"--date", "a date", fun o v => do return { o with date := some (← dateValue v) }⟩,
  ⟨"--user", "an id", fun o v => do return { o with user := some (← idValue "--user" v) }⟩,
  ⟨"--staff", "an id", fun o v => do return { o with staff := some (← idValue "--staff" v) }⟩,
  ⟨"--client-id", "a value", fun o v => .ok { o with clientId := some v }⟩,
  ⟨"--client-name", "a value", fun o v => .ok { o with clientName := some v }⟩,
  ⟨"--format", "'text' or 'json'", fun o v => .ok { o with format := v }⟩]

def exchangeSwitches : List (String × (ExchangeOptions → ExchangeOptions)) :=
  [("--per-leg", fun o => { o with atomicity := .perLeg })]

structure RateOptions where
  book : Option String := none
  currency : Option String := none
  type : Option RateType := none
  date : Option Date := none
  format : String := "text"
  deriving DecidableEq, Repr

def rateFlags : List (ValueFlag RateOptions) := [
  ⟨"--book", "a file path", fun o v => .ok { o with book := some v }⟩,
  ⟨"--currency", "a currency code", fun o v => .ok { o with currency := some v }⟩,
  ⟨"--type", "buying, selling, intermediary or 1-3",
    fun o v => do return { o with type := some (← rateTypeValue v) }⟩,
  ⟨"--date", "a date", fun o v => do return { o with date := some (← dateValue v) }⟩,
  ⟨"--format", "'text' or 'json'", fun o v => .ok { o with format := v }⟩]

inductive Command where
  | help
  | exchange (options : ExchangeOptions)
  | rate (options : RateOptions)
  deriving DecidableEq, Repr

def Command.ofArgs? : List String → Except UsageError (Option Command)
  | [] => .ok none
  | name :: rest =>
    if name = "exchange" then do
      return some (.exchange (← readOptions exchangeFlags exchangeSwitches {} rest))
    else if name = "rate" then do
      return some (.rate (← readOptions rateFlags [] {} rest))
    else if name = "help" ∨ name = "--help" ∨ name = "-h" then .ok (some .help)
    else .error (.unknownCommand name)

def Command.path? : Command → Option String
  | .help => none
  | .exchange options => options.book
  | .rate options => options.book

end ExchangeDesk.CommandLine
